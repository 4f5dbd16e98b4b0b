import Sendplane.Sender.Process

namespace Sendplane.Sender.Process

open Data Store Memstore Prog Provider Call World Function

/-- At most the settings row has changed. -/
def OnlySettings (before after : TenantStore) : Prop :=
  ∃ settings, after = { before with settings }

def RowsKept (before after : Provider) : Prop :=
  ∃ settings : Text → Option TenantSettings,
    after = { before with tenants := fun t => { before.tenants t with settings := settings t } }

theorem RowsKept.refl (p : Provider) : RowsKept p p :=
  ⟨fun t => (p.tenants t).settings, rfl⟩

theorem rowsKept_put (kept : OnlySettings (p.tenants tenantID) s) : RowsKept p (p.put tenantID s) := by
  obtain ⟨settings, rfl⟩ := kept
  refine ⟨update (fun t => (p.tenants t).settings) tenantID settings, ?_⟩
  rw [put]
  congr 1
  funext t
  by_cases same : t = tenantID
  · subst same
    simp
  · simp [update_of_ne same]

theorem loadTenantSettings_kept (now : Time) : OnlySettings s ((loadTenantSettings () tenantID key now).exec s).2 := by
  have reads (s : TenantStore) : OnlySettings s (id s) := ⟨s.settings, rfl⟩
  have creates (v : TenantSettings) (s : TenantStore) : OnlySettings s (s.settingsCreate v).2 := by
    rw [TenantStore.settingsCreate]
    split
    · exact reads s
    · exact ⟨_, rfl⟩
  have makes : (loadTenantSettings () tenantID key now).Makes
      (fun _ effect => ∀ s, OnlySettings s (effect s)) fun _ => True :=
    loadTenantSettings_makes reads creates
  apply makes.run_keeps reads
  rintro first second third ⟨_, rfl⟩ ⟨settings, rfl⟩
  exact ⟨settings, rfl⟩

section

variable (cfg : Config) (now : Time)

theorem load_kept (tenantID key : Text) (p : Provider) (kind : Kind) :
    RowsKept p (kind.load cfg now tenantID key p).2 := by
  cases kind with
  | settings => exact rowsKept_put (loadTenantSettings_kept ..)
  | _ => exact .refl p

variable {kind : Kind}

theorem load_congr (kept : RowsKept before after) (tenantID key : Text) (row : kind ≠ .settings) :
    (kind.load cfg now tenantID key after).1 = (kind.load cfg now tenantID key before).1 := by
  obtain ⟨settings, rfl⟩ := kept
  cases kind with
  | settings => exact absurd rfl row
  | _ => rfl

variable {tenantID key : Text} {e : Err}

variable {cfg now} in
theorem load_error (row : kind ≠ .settings) (failed : (kind.load cfg now tenantID key p).1 = .error e) :
    e.kind = .notFound := by
  have missing {α : Type} {rows : Table Text α} (failed : find rows key = .error e) : e.kind = .notFound := by
    rw [find] at failed
    split at failed
    · cases failed
      rfl
    · cases failed
  cases kind with
  | settings => exact absurd rfl row
  | campaign => exact missing failed
  | version =>
      simp only [Kind.load, versionGet] at failed
      split at failed
      · cases failed
      next e' absent =>
        split at failed
        · cases failed
          exact missing absent
        · exact missing failed
  | sender => exact senderGet_error failed
  | transport =>
      simp only [Kind.load, transportGet] at failed
      split at failed
      · exact missing failed
      · grind [Err.wrap]
  | domain =>
      simp only [Kind.load, domainGet] at failed
      split at failed
      · exact missing failed
      · grind [Err.wrap]

def World.seen (holder : Holder) (kind : Kind) (key : Text) (w : World) :
    Except Err kind.Row :=
  (w.get cfg now holder kind key).1

theorem seen_eq (holder : Holder) (w : World) :
    w.seen cfg now holder kind key = match (w.caches holder kind).hit (kind.ttl cfg) key now with
      | some v => .ok v
      | none => (kind.load cfg now holder.tenantID key w.provider).1 := by
  rw [World.seen, World.get]
  cases (w.caches holder kind).hit (kind.ttl cfg) key now with
  | some v => rfl
  | none =>
      dsimp only
      split <;> next loaded => rw [loaded]

theorem hit_remember (w : World) (holder other : Holder) (kind : Kind) (key : Text) (v : kind.Row)
    (wanted : Kind) (name : Text) (elsewhere : ¬(holder = other ∧ kind = wanted ∧ key = name)) :
    ((remember now w holder kind key v).caches other wanted).hit (wanted.ttl cfg) name now =
      (w.caches other wanted).hit (wanted.ttl cfg) name now := by
  rw [remember]
  by_cases sameHolder : other = holder
  · subst sameHolder
    by_cases sameKind : wanted = kind
    · subst sameKind
      simp only [update_self, Cache.hit_remember]
      rw [if_neg fun sameKey => elsewhere ⟨rfl, rfl, sameKey⟩]
    · simp [update_of_ne sameKind]
  · simp [update_of_ne sameHolder]

theorem hit_remembered (holder : Holder) :
    ((remember now w holder kind key v).caches holder kind).hit (kind.ttl cfg) key now = some v := by
  simp [remember, Cache.hit_remember]

/-- A lookup changes nothing of what any other one sees, and none of its own
answer. -/
theorem seen_get (w : World) (holder other : Holder) (kind wanted : Kind) (key name : Text) (row : wanted ≠ .settings) :
    (w.get cfg now holder kind key).2.seen cfg now other wanted name = w.seen cfg now other wanted name := by
  have kept := load_kept cfg now holder.tenantID key w.provider kind
  have reload := load_congr cfg now kept other.tenantID name row
  rw [World.get]
  cases found : (w.caches holder kind).hit (kind.ttl cfg) key now with
  | some v => rfl
  | none =>
      cases loaded : kind.load cfg now holder.tenantID key w.provider with
      | mk reply provider =>
          rw [loaded] at reload
          cases reply with
          | error e =>
              rw [seen_eq, seen_eq, reload]
          | ok v =>
              by_cases same : holder = other ∧ kind = wanted ∧ key = name
              · obtain ⟨rfl, rfl, rfl⟩ := same
                rw [seen_eq, seen_eq, hit_remembered, found, loaded]
              · rw [seen_eq, seen_eq, hit_remember cfg now _ _ _ _ _ _ _ _ same]
                simp [remember, reload]

theorem seen_settings (holder : Holder) (key : Text) (w : World) :
    ∃ settings, w.seen cfg now holder .settings key = .ok settings := by
  rw [seen_eq]
  split
  · exact ⟨_, rfl⟩
  · have calm : ∀ n : Nat, ∀ e ∈ (none : Option Err), Outage e := by simp
    cases stored : (w.provider.tenants holder.tenantID).settings with
    | some settings =>
        have ran := loadTenantSettings_run_stored () holder.tenantID cfg.newKey now calm stored
        exact ⟨settings, congrArg Prod.fst ran⟩
    | none =>
        obtain ⟨-, -, settings, _, ran⟩ | ⟨unlike, -⟩ :=
          loadTenantSettings_run_absent () holder.tenantID cfg.newKey now calm stored
        · exact ⟨settings, congrArg Prod.fst ran⟩
        · simp at unlike

variable {w : World} {holder : Holder}

variable {cfg now} in
theorem seen_error (row : kind ≠ .settings) (failed : w.seen cfg now holder kind key = .error e) :
    e.kind = .notFound := by
  rw [seen_eq] at failed
  split at failed
  · cases failed
  · exact load_error row failed

def World.view (w : World) : Except Err Unit :=
  w.platform.getD (.ok ())

/-- Lookups see the rows they would have seen before. -/
structure Agrees (before after : World) : Prop where
  seen : ∀ holder kind key, kind ≠ .settings → after.seen cfg now holder kind key = before.seen cfg now holder kind key
  view : after.view = before.view
  suppressions : ∀ t, (after.provider.tenants t).suppressions = (before.provider.tenants t).suppressions
  handed : after.handed = before.handed

variable {cfg now}

theorem Agrees.refl (w : World) : Agrees cfg now w w :=
  ⟨fun _ _ _ _ => rfl, rfl, fun _ => rfl, rfl⟩

theorem Agrees.trans (left : Agrees cfg now first second) (right : Agrees cfg now second third) :
    Agrees cfg now first third :=
  ⟨fun holder kind key row => (right.seen holder kind key row).trans (left.seen holder kind key row),
    right.view.trans left.view, fun t => (right.suppressions t).trans (left.suppressions t),
    right.handed.trans left.handed⟩

variable {after : World}

theorem Agrees.isSuppressed (agrees : Agrees cfg now before after) (t emailNorm : Text) (time : Time) :
    (after.provider.tenants t).isSuppressed emailNorm time =
      (before.provider.tenants t).isSuppressed emailNorm time := by
  simp [TenantStore.isSuppressed, agrees.suppressions]

theorem agrees_get (holder : Holder) : Agrees cfg now w (w.get cfg now holder kind key).2 := by
  have kept := load_kept cfg now holder.tenantID key w.provider kind
  have frame : ∃ provider caches, RowsKept w.provider provider ∧
      (w.get cfg now holder kind key).2 = { w with provider, caches } := by
    rw [World.get]
    split
    · exact ⟨w.provider, w.caches, .refl _, rfl⟩
    · split <;>
      next loaded =>
        rw [loaded] at kept
        exact ⟨_, _, kept, rfl⟩
  have seen (other : Holder) (wanted : Kind) (name : Text) (row : wanted ≠ .settings) :=
    seen_get cfg now w holder other kind wanted key name row
  obtain ⟨_, caches, ⟨settings, rfl⟩, got⟩ := frame
  rw [got] at seen ⊢
  exact ⟨seen, rfl, fun _ => rfl, rfl⟩

/-- A call failed, and the answer is an outage. -/
structure Broken {α : Type} (w : World) (trace : Prog.Trace Call) (reply : Except Err α) (after : World) :
    Prop where
  failed : Prog.Failed trace
  outage : ∃ e, Outage e ∧ reply = .error e
  handed : after.handed = w.handed

def Answers {α : Type} (cfg : Config) (now : Time) (w : World) (trace : Prog.Trace Call)
    (reply : Except Err α) (after : World) (answer : Except Err α) : Prop :=
  Broken w trace reply after ∨ reply = answer ∧ Agrees cfg now w after

variable {trace : Prog.Trace Call}

theorem load_ends (ends : (load cfg now holder kind key).Ends Fault w trace reply after) :
    Answers cfg now w trace reply after (w.seen cfg now holder kind key) := by
  obtain ⟨rfl, rfl⟩ | ⟨rfl, rfl, e, fault, rfl⟩ := ends_once ends
  · exact .inr ⟨rfl, agrees_get ..⟩
  · exact .inl ⟨⟨_, List.mem_cons_self⟩, ⟨e, fault.2, rfl⟩, rfl⟩

variable {α : Type}

theorem query_ends {call : Call} (ends : (query call look).Ends Fault w trace reply after) :
    Answers cfg now w trace reply after (look w) := by
  obtain ⟨rfl, rfl⟩ | ⟨rfl, rfl, e, fault, rfl⟩ := ends_once ends
  · exact .inr ⟨rfl, .refl _⟩
  · exact .inl ⟨⟨_, List.mem_cons_self⟩, ⟨e, fault.2, rfl⟩, rfl⟩

theorem answers_bind {β : Type} {program : Proc (Except Err α)} {next : Except Err α → Proc (Except Err β)}
    {final : Except Err β} {rest : α → Except Err β}
    (looked : ∀ trace reply middle, program.Ends Fault w trace reply middle →
      Answers cfg now w trace reply middle answer) (hands : ∀ e, next (.error e) = pure (.error e))
    (continues : ∀ v middle trace final after, Agrees cfg now w middle →
      (next (.ok v)).Ends Fault middle trace final after → Answers cfg now middle trace final after (rest v))
    (ends : (program >>= next).Ends Fault w trace final after) :
    Answers cfg now w trace final after (answer.bind rest) := by
  obtain ⟨first, second, reply, middle, rfl, started, finished⟩ := ends_bind ends
  obtain ⟨failed, ⟨e, outage, rfl⟩, handed⟩ | ⟨rfl, agrees⟩ := looked _ _ _ started
  · rw [hands] at finished
    obtain ⟨rfl, rfl, rfl⟩ := finished
    exact .inl ⟨failed_append.mpr (.inl failed), ⟨e, outage, rfl⟩, handed⟩
  · cases reply with
    | error e =>
        rw [hands] at finished
        obtain ⟨rfl, rfl, rfl⟩ := finished
        exact .inr ⟨rfl, agrees⟩
    | ok v =>
        obtain ⟨failed, outage, handed⟩ | ⟨same, later⟩ := continues _ _ _ _ _ agrees finished
        · exact .inl ⟨failed_append.mpr (.inr failed), outage, handed.trans agrees.handed⟩
        · exact .inr ⟨same, agrees.trans later⟩

theorem answers_pure (ends : (pure answer : Proc (Except Err α)).Ends Fault w trace reply after) :
    Answers cfg now w trace reply after answer := by
  obtain ⟨rfl, rfl, rfl⟩ := ends
  exact .inr ⟨rfl, .refl _⟩

theorem sysState_ends {reply : Except Err Unit} (ends : sysState.Ends Fault w trace reply after) :
    Answers cfg now w trace reply after w.view := by
  obtain ⟨asked, ⟨rfl, looked⟩ | ⟨rfl, e, fault, -⟩⟩ := ends_query ends
  · cases known : w.platform with
    | some view =>
        simp only [known] at looked
        obtain ⟨rfl, rfl, rfl⟩ := looked
        exact .inr ⟨by simp [view, known], .refl _⟩
    | none =>
        simp only [known] at looked
        obtain ⟨told, ⟨rfl, viewed⟩ | ⟨rfl, e, fault, failed⟩⟩ := ends_query looked
        · obtain ⟨kept, ⟨rfl, stored⟩ | ⟨rfl, e, fault, -⟩⟩ := ends_invoke viewed
          · obtain ⟨rfl, rfl, rfl⟩ := stored
            exact .inr ⟨by simp [view, known],
              ⟨fun _ _ _ _ => by rw [seen_eq, seen_eq], by simp [view, known], fun _ => rfl, rfl⟩⟩
          · exact absurd rfl fault.1
        · obtain ⟨kept, ⟨rfl, stored⟩ | ⟨rfl, e', fault', -⟩⟩ := ends_invoke failed
          · obtain ⟨rfl, rfl, rfl⟩ := stored
            exact .inl ⟨⟨.platformView, by simp⟩, ⟨e, fault.2, rfl⟩, rfl⟩
          · exact absurd rfl fault'.1
  · exact absurd rfl fault.1

def World.configState (tenantID id : Text) (w : World) : Except Err Holder :=
  if !isPlatformID id ∨ tenantID = systemTenantID then .ok (.tenant tenantID)
  else w.view.bind fun _ => .ok .platform

theorem configState_ends {id : Text} {reply : Except Err Holder}
    (ends : (configState tenantID id).Ends Fault w trace reply after) :
    Answers cfg now w trace reply after (w.configState tenantID id) := by
  rw [configState] at ends
  rw [World.configState]
  split
  next own =>
    rw [if_pos own] at ends
    exact answers_pure ends
  next shared =>
    rw [if_neg shared] at ends
    exact answers_bind (fun _ _ _ => sysState_ends) (fun _ => rfl) (fun _ _ _ _ _ _ => answers_pure) ends

theorem Agrees.configState (agrees : Agrees cfg now before after) (tenantID id : Text) :
    after.configState tenantID id = before.configState tenantID id := by
  rw [World.configState, agrees.view]
  rfl

variable (cfg now) in
def World.transportFor (tenantID id : Text) (w : World) : Except Err Transport :=
  (w.configState tenantID id).bind fun holder => w.seen cfg now holder .transport id

theorem transportFor_ends {id : Text} {reply : Except Err Transport}
    (ends : (transportFor cfg now tenantID id).Ends Fault w trace reply after) :
    Answers cfg now w trace reply after (w.transportFor cfg now tenantID id) := by
  refine answers_bind (fun _ _ _ => configState_ends) (fun _ => rfl) ?_ ends
  intro holder middle trace reply after agrees loaded
  rw [← agrees.seen _ _ _ (by decide)]
  exact load_ends loaded

variable (cfg now) in
def World.domainFor (tenantID id : Text) (w : World) : Except Err (Option SendingDomain) :=
  (w.configState tenantID id).bind fun holder =>
    if id = [] then .ok none else (w.seen cfg now holder .domain id).bind fun row => .ok (some row)

theorem domainFor_ends {id : Text} {reply : Except Err (Option SendingDomain)}
    (ends : (domainFor cfg now tenantID id).Ends Fault w trace reply after) :
    Answers cfg now w trace reply after (w.domainFor cfg now tenantID id) := by
  refine answers_bind (fun _ _ _ => configState_ends) (fun _ => rfl) ?_ ends
  intro holder middle trace reply after agrees loaded
  dsimp only [domain] at loaded
  rw [← agrees.seen _ _ _ (by decide)]
  split
  next unnamed =>
    rw [if_pos unnamed] at loaded
    exact answers_pure loaded
  next named =>
    rw [if_neg named] at loaded
    exact answers_bind (fun _ _ _ => load_ends) (fun _ => rfl) (fun _ _ _ _ _ _ => answers_pure) loaded

variable (cfg now) in
def World.campaignOf (tenantID : Text) (d : Delivery) (w : World) : Except Err (Option Campaign) :=
  if d.campaignID = [] then .ok none
  else (w.seen cfg now (.tenant tenantID) .campaign d.campaignID).bind fun row => .ok (some row)

theorem campaignOf_ends {reply : Except Err (Option Campaign)}
    (ends : (campaignOf cfg now tenantID d).Ends Fault w trace reply after) :
    Answers cfg now w trace reply after (w.campaignOf cfg now tenantID d) := by
  rw [campaignOf] at ends
  rw [World.campaignOf]
  split
  next none =>
    rw [if_pos none] at ends
    exact answers_pure ends
  next some =>
    rw [if_neg some] at ends
    exact answers_bind (fun _ _ _ => load_ends) (fun _ => rfl) (fun _ _ _ _ _ _ => answers_pure) ends

theorem platformSuppressed_ends {tr : Transport} {reply : Except Err Bool} (shared : tr.shared = true)
    (ends : (platformSuppressed now d tr).Ends Fault w trace reply after) :
    Answers cfg now w trace reply after
      (w.view.bind fun _ => (w.provider.tenants systemTenantID).isSuppressed d.emailNorm now) := by
  simp only [platformSuppressed, shared, Bool.not_true, Bool.false_eq_true] at ends
  refine answers_bind (fun _ _ _ => sysState_ends) (fun _ => rfl) ?_ ends
  intro _ middle trace reply after agrees asked
  rw [← agrees.isSuppressed]
  exact query_ends asked

end

end Sendplane.Sender.Process
