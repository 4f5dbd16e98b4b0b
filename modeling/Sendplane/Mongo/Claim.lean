import Sendplane.Data.System
import Sendplane.Mongo.Delivery

namespace Sendplane.Mongo

open Data Store Table List

/-! # Claiming without a transaction

A claim looks for candidates, leases those that are still eligible under a token
of its own, and reads back what carries the token.  Only the work on a single
document is atomic, so every step below is one document of one call.
-/

inductive Phase where
  | finding (seen : List (Text × DeliveryDoc))
  | leasing (ids : List Text) (token : Text) (left : List Text)
  | reading (token : Text) (left : List Text) (found : List (Text × DeliveryDoc))
  | returned (rows : List (Text × DeliveryDoc))
deriving DecidableEq

structure Call where
  req : ClaimRequest
  phase : Phase

/-- What has been done to a document. -/
inductive Happening where
  | leased (call : Nat) (before : DeliveryDoc)
  /-- Given up by Complete, ReleaseExpiredLeases or Requeue. -/
  | givenUp
  /-- Moved out of leased by BulkTransition. -/
  | transitioned
deriving DecidableEq

structure State where
  docs : Table Text DeliveryDoc := ∅
  calls : List Call := []
  log : List (Text × Happening) := []

/-- The writers besides Claim find documents first as well, but their update
repeats the whole condition, so that one step for each document says it all. -/
inductive Step where
  | start (req : ClaimRequest)
  | examine (call : Nat) (id : Text)
  | pick (call : Nat) (token : Text)
  | lease (call : Nat) (id : Text)
  | readBack (call : Nat) (id : Text)
  | finish (call : Nat)
  | fail (call : Nat)
  | complete (now : Time) (res : DeliveryResult)
  | release (now : Time) (id : Text)
  | requeue (f : RetryFilter) (id : Text)
  | transition (now : Time) (campaignID : Text) (source : List DeliveryStatus) (target : DeliveryStatus) (id : Text)

def Call.token (call : Call) : Option Text :=
  match call.phase with
  | .leasing _ token _ | .reading token _ _ => some token
  | .finding _ | .returned _ => none

def State.freshToken (s : State) (token : Text) : Bool :=
  token ≠ [] && s.calls.all (fun call => call.token ≠ some token) &&
    s.docs.toList.all fun entry => entry.2.claimToken ≠ token

def State.advance (s : State) (index : Nat) (phase : Call → Option Phase) : Option State :=
  s.calls[index]?.bind fun call =>
    (phase call).map fun phase => { s with calls := s.calls.set index { call with phase } }

def State.update (s : State) (id : Text) (test : DeliveryDoc → Bool) (change : DeliveryDoc → DeliveryDoc)
    (happening : DeliveryDoc → Option Happening) : Option State :=
  s.docs[id]?.bind fun doc =>
    if test doc then
      some { s with
        docs := s.docs.insert id (change doc)
        log := (happening doc).elim s.log fun happening => (id, happening) :: s.log }
    else none

def examined (s : State) (id : Text) (call : Call) : Option Phase :=
  match call.phase with
  | .finding seen =>
      s.docs[id]?.bind fun doc =>
        if claimFilter call.req doc && seen.all (fun entry => entry.1 ≠ id) then
          some (.finding (seen ++ [(id, doc)])) else none
  | .leasing .. | .reading .. | .returned _ => none

/-- The end of the search: the best candidates in order, and a token. -/
def picked (token : Text) (call : Call) : Option Phase :=
  match call.phase with
  | .finding seen =>
      let ids := (takeLimit call.req.limit (seen.insertionSort fun a b => claimSort a b = true)).map Prod.fst
      some (if ids = [] then .returned [] else .leasing ids token ids)
  | .leasing .. | .reading .. | .returned _ => none

def readFrom (s : State) (id : Text) (call : Call) : Option Phase :=
  match call.phase with
  | .reading token left found =>
      if id ∈ left then
        match s.docs[id]? with
        | some doc =>
            some (.reading token (left.erase id) (if doc.claimToken = token then found ++ [(id, doc)] else found))
        | none => some (.reading token (left.erase id) found)
      else none
  | .finding _ | .leasing .. | .returned _ => none

def finished (call : Call) : Option Phase :=
  match call.phase with
  | .leasing ids token [] => some (.reading token ids [])
  | .reading _ [] found => some (.returned (found.insertionSort fun a b => claimSort a b = true))
  | .finding _ | .leasing _ _ (_ :: _) | .reading _ (_ :: _) _ | .returned _ => none

def failed (call : Call) : Option Phase :=
  match call.phase with
  | .finding _ | .leasing .. | .reading .. => some (.returned [])
  | .returned _ => none

/-- The update of a call, on one of its documents: it leases the document if it
is still eligible. -/
def State.leaseOne (s : State) (index : Nat) (id : Text) : Option State :=
  s.calls[index]?.bind fun call =>
    match call.phase with
    | .leasing ids token left =>
        if id ∈ left then
          let calls := s.calls.set index { call with phase := .leasing ids token (left.erase id) }
          match s.docs[id]? with
          | some doc =>
              if claimFilter call.req doc then
                some { docs := s.docs.insert id (leaseDoc call.req token doc), calls,
                       log := (id, .leased index doc) :: s.log }
              else some { s with calls }
          | none => some { s with calls }
        else none
    | .finding _ | .reading .. | .returned _ => none

def step (s : State) : Step → Option State
  | .start req => some { s with calls := s.calls ++ [⟨req, .finding []⟩] }
  | .examine index id => s.advance index (examined s id)
  | .pick index token => if s.freshToken token then s.advance index (picked token) else none
  | .lease index id => s.leaseOne index id
  | .readBack index id => s.advance index (readFrom s id)
  | .finish index => s.advance index finished
  | .fail index => s.advance index failed
  | .complete now res => s.update res.deliveryID (completeFilter res) (completeDoc now res) fun _ => some .givenUp
  | .release now id => s.update id (releaseFilter now) (releaseDoc now) fun _ => some .givenUp
  | .requeue f id => s.update id (requeueFilter f id) (requeueDoc f) fun _ => some .givenUp
  | .transition now campaignID source target id =>
      s.update id (transitionFilter campaignID source target) (transitionDoc target now) fun doc =>
        if doc.status = .leased then some .transitioned else none

def system : System State Step where
  step := step

def Happening.isLeased : Happening → Bool
  | .leased .. => true
  | .givenUp | .transitioned => false

def latest (log : List (Text × Happening)) (id : Text) : Option Happening :=
  (log.find? fun entry => entry.1 = id).map Prod.snd

/-- The latest that happened to the document is a claim. -/
def Taken (log : List (Text × Happening)) (id : Text) : Prop :=
  (latest log id).any Happening.isLeased = true

variable {log : List (Text × Happening)}

theorem latest_cons {id : Text} :
    latest ((changed, happening) :: log) id = if changed = id then some happening else latest log id := by
  unfold latest
  by_cases same : changed = id
  · simp [same]
  · simp [same]

/-- A lease is only taken when the one before has ended. -/
def Alternates (log : List (Text × Happening)) : Prop :=
  ∀ newer id index before older, log = newer ++ (id, .leased index before) :: older → ¬Taken older id

theorem alternates_cons (alternates : Alternates log) (ended : happening.isLeased = true → ¬Taken log changed) :
    Alternates ((changed, happening) :: log) := by
  intro newer id index before older split
  cases newer with
  | nil =>
      obtain ⟨⟨rfl, rfl⟩, rfl⟩ := split
      exact ended rfl
  | cons entry newer =>
      exact alternates newer id index before older (cons.inj split).2

/-- A document that is taken is leased, and claims alternate with releases. -/
structure Held (s : State) : Prop where
  leased : ∀ id, Taken s.log id → ∃ doc, s.docs[id]? = some doc ∧ doc.status = .leased
  alternates : Alternates s.log

variable {s : State} {calls : List Call} {doc : DeliveryDoc}

theorem Held.change {id : Text} (held : Held s) {happening : Option Happening}
    (logged : ∀ entry, happening = some entry → entry.isLeased = false)
    (silent : happening = none → Taken s.log id → doc.status = .leased) :
    Held { docs := s.docs.insert id doc, calls, log := happening.elim s.log fun entry => (id, entry) :: s.log } := by
  cases happening with
  | none =>
      constructor
      · intro other taken
        obtain ⟨old, stored, status⟩ := held.leased other taken
        by_cases same : id = other
        · subst same
          exact ⟨doc, get_insert_same _ _ _, silent rfl taken⟩
        · exact ⟨old, (get_insert_ne same).trans stored, status⟩
      · exact held.alternates
  | some entry =>
      have ended := logged entry rfl
      constructor
      · intro other taken
        by_cases same : id = other
        · simp [Taken, latest_cons, same, ended] at taken
        · simp only [Option.elim_some, Taken, latest_cons, same] at taken
          obtain ⟨old, stored, status⟩ := held.leased other taken
          exact ⟨old, (get_insert_ne same).trans stored, status⟩
      · apply alternates_cons held.alternates
        intro leased
        rw [ended] at leased
        cases leased

variable {index : Nat} {req : ClaimRequest}

theorem Held.lease {id token : Text} (held : Held s) (stored : s.docs[id]? = some doc)
    (eligible : claimFilter req doc = true) :
    Held { docs := s.docs.insert id (leaseDoc req token doc), calls, log := (id, .leased index doc) :: s.log } := by
  constructor
  · intro other taken
    by_cases same : id = other
    · subst same
      exact ⟨_, get_insert_same _ _ _, rfl⟩
    · simp only [Taken, latest_cons, same] at taken
      obtain ⟨old, found, status⟩ := held.leased other taken
      exact ⟨old, (get_insert_ne same).trans found, status⟩
  · apply alternates_cons held.alternates
    intro _ taken
    obtain ⟨old, found, status⟩ := held.leased id taken
    obtain rfl : old = doc := Option.some.inj (found.symm.trans stored)
    have claimable := claimFilter_status eligible
    rw [status] at claimable
    simp at claimable

def Call.rows (call : Call) : List (Text × DeliveryDoc) :=
  match call.phase with
  | .reading _ _ found => found
  | .returned rows => rows
  | .finding _ | .leasing .. => []

/-- The call has leased the document while it passed the filter. -/
def LeasedBy (log : List (Text × Happening)) (index : Nat) (req : ClaimRequest) (id : Text) : Prop :=
  ∃ before, (id, Happening.leased index before) ∈ log ∧ claimFilter req before = true

theorem LeasedBy.mono {id : Text} (leased : LeasedBy log index req id) (subset : log ⊆ more) :
    LeasedBy more index req id := by
  obtain ⟨before, logged, eligible⟩ := leased
  exact ⟨before, subset logged, eligible⟩

/-- A document with the token of a call was leased by that call. -/
structure Traced (s : State) : Prop where
  named : ∀ (index : Nat) call, s.calls[index]? = some call → call.token ≠ some []
  distinct : ∀ (first second : Nat) left right, s.calls[first]? = some left → s.calls[second]? = some right →
    left.token = right.token → left.token.isSome = true → first = second
  carried : ∀ (index : Nat) call, s.calls[index]? = some call → ∀ token, call.token = some token →
    ∀ (id : Text) doc, s.docs[id]? = some doc → doc.claimToken = token → LeasedBy s.log index call.req id
  rows : ∀ (index : Nat) call, s.calls[index]? = some call → ∀ row ∈ call.rows, LeasedBy s.log index call.req row.1

/-- What a call may do with its own phase: keep, drop or draw its token, and
keep rows or read those that carry it. -/
structure Advances (s : State) (call : Call) (phase : Phase) : Prop where
  token : ({ call with phase } : Call).token = call.token ∨ ({ call with phase } : Call).token = none ∨
    ∃ token, s.freshToken token = true ∧ ({ call with phase } : Call).token = some token
  rows : ∀ row ∈ ({ call with phase } : Call).rows, row ∈ call.rows ∨
    s.docs[row.1]? = some row.2 ∧ call.token = some row.2.claimToken

section Phases

variable {id : Text}

theorem examined_advances (moved : examined s id call = some phase) : Advances s call phase := by
  obtain ⟨req, old⟩ := call
  cases old with
  | finding seen =>
      obtain ⟨doc, -, chosen⟩ := Option.bind_eq_some_iff.mp moved
      simp only [Option.ite_none_right_eq_some, Option.some.injEq] at chosen
      obtain ⟨-, rfl⟩ := chosen
      exact ⟨.inl rfl, fun row member => by cases member⟩
  | leasing | reading | returned => cases moved

theorem picked_advances (fresh : s.freshToken token = true) (moved : picked token call = some phase) :
    Advances s call phase := by
  obtain ⟨req, old⟩ := call
  cases old with
  | finding seen =>
      simp only [picked, Option.some.injEq] at moved
      subst moved
      split
      · exact ⟨.inl rfl, fun row member => by cases member⟩
      · exact ⟨.inr (.inr ⟨token, fresh, rfl⟩), fun row member => by cases member⟩
  | leasing | reading | returned => cases moved

theorem readFrom_advances (moved : readFrom s id call = some phase) : Advances s call phase := by
  obtain ⟨req, old⟩ := call
  cases old with
  | finding | leasing => cases moved
  | reading token left found =>
      simp only [readFrom, Option.ite_none_right_eq_some] at moved
      obtain ⟨-, moved⟩ := moved
      cases stored : s.docs[id]? with
      | none =>
          simp only [stored, Option.some.injEq] at moved
          subst moved
          exact ⟨.inl rfl, fun row member => .inl member⟩
      | some doc =>
          simp only [stored, Option.some.injEq] at moved
          subst moved
          refine ⟨.inl rfl, fun row member => ?_⟩
          by_cases own : doc.claimToken = token
          · simp only [Call.rows, own, ↓reduceIte, mem_append, mem_singleton] at member
            rcases member with kept | rfl
            · exact .inl kept
            · exact .inr ⟨stored, congrArg some own.symm⟩
          · simp only [own] at member
            exact .inl member
  | returned rows => cases moved

theorem finished_advances (moved : finished call = some phase) : Advances s call phase := by
  obtain ⟨req, old⟩ := call
  cases old with
  | finding seen => cases moved
  | leasing ids token left =>
      cases left with
      | nil =>
          cases moved
          exact ⟨.inl rfl, fun row member => by cases member⟩
      | cons id rest => cases moved
  | reading token left found =>
      cases left with
      | nil =>
          cases moved
          exact ⟨.inr (.inl rfl), fun row member => .inl ((mem_insertionSort _).mp member)⟩
      | cons id rest => cases moved
  | returned rows => cases moved

theorem failed_advances (moved : failed call = some phase) : Advances s call phase := by
  obtain ⟨req, old⟩ := call
  cases old with
  | finding | leasing | reading =>
      cases moved
      exact ⟨.inr (.inl rfl), fun row member => by cases member⟩
  | returned rows => cases moved

end Phases

variable {call : Call}

theorem get_set_call {old next : Call} (found : calls[index]? = some old)
    (stored : (calls.set index next)[other]? = some call) :
    other = index ∧ call = next ∨ other ≠ index ∧ calls[other]? = some call := by
  have bound := (List.getElem?_eq_some_iff.mp found).1
  rw [getElem?_set] at stored
  by_cases same : index = other
  · subst same
    simp only [bound, ↓reduceIte, Option.some.injEq] at stored
    exact .inl ⟨rfl, stored.symm⟩
  · rw [if_neg same] at stored
    exact .inr ⟨Ne.symm same, stored⟩

/-- Nobody has the token yet. -/
structure Fresh (s : State) (token : Text) : Prop where
  named : token ≠ []
  calls : ∀ call ∈ s.calls, call.token ≠ some token
  docs : ∀ (id : Text) doc, s.docs[id]? = some doc → doc.claimToken ≠ token

theorem fresh_of_freshToken (unused : s.freshToken token = true) : Fresh s token := by
  simp only [State.freshToken, Bool.and_eq_true, decide_eq_true_eq, all_eq_true] at unused
  obtain ⟨⟨named, calls⟩, docs⟩ := unused
  exact ⟨named, calls, fun id doc stored => docs (id, doc) (mem_toList.mpr stored)⟩

section Trace

variable {index : Nat}

theorem Traced.advance (traced : Traced s) (found : s.calls[index]? = some call) (advances : Advances s call phase) :
    Traced { s with calls := s.calls.set index { call with phase } } := by
  constructor
  case named =>
    intro other next stored
    rcases get_set_call found stored with ⟨rfl, rfl⟩ | ⟨-, before⟩
    · rcases advances.token with same | none | ⟨token, unused, drawn⟩
      · rw [same]
        exact traced.named other call found
      · simp [none]
      · rw [drawn]
        exact fun empty => (fresh_of_freshToken unused).named (Option.some.inj empty)
    · exact traced.named other next before
  case distinct =>
    -- A call that shares the changed call's token shared it before: a new token is nobody else's.
    have shared : ∀ (other : Nat) next, other ≠ index → s.calls[other]? = some next →
        ({ call with phase } : Call).token = next.token → next.token.isSome = true → False := by
      intro other next apart stored same some
      rcases advances.token with kept | none | ⟨token, unused, drawn⟩
      · exact apart (traced.distinct other index next call stored found (same.symm.trans kept) some)
      · rw [← same, none] at some
        cases some
      · exact (fresh_of_freshToken unused).calls next (mem_of_getElem? stored) (same.symm.trans drawn)
    intro first second left right storedLeft storedRight same some
    rcases get_set_call found storedLeft with ⟨rfl, rfl⟩ | ⟨apartLeft, beforeLeft⟩
    · rcases get_set_call found storedRight with ⟨rfl, rfl⟩ | ⟨apartRight, beforeRight⟩
      · rfl
      · exact (shared second right apartRight beforeRight same (same ▸ some)).elim
    · rcases get_set_call found storedRight with ⟨rfl, rfl⟩ | ⟨apartRight, beforeRight⟩
      · exact (shared first left apartLeft beforeLeft same.symm some).elim
      · exact traced.distinct first second left right beforeLeft beforeRight same some
  case carried =>
    intro other next stored token named id doc present carries
    rcases get_set_call found stored with ⟨rfl, rfl⟩ | ⟨-, before⟩
    · rcases advances.token with same | none | ⟨drawn, unused, new⟩
      · exact traced.carried other call found token (same.symm.trans named) id doc present carries
      · rw [none] at named
        cases named
      · obtain rfl : drawn = token := Option.some.inj (new.symm.trans named)
        exact absurd carries ((fresh_of_freshToken unused).docs id doc present)
    · exact traced.carried other next before token named id doc present carries
  case rows =>
    intro other next stored row inside
    rcases get_set_call found stored with ⟨rfl, rfl⟩ | ⟨-, before⟩
    · rcases advances.rows row inside with kept | ⟨present, own⟩
      · exact traced.rows other call found row kept
      · exact traced.carried other call found _ own row.1 row.2 present rfl
    · exact traced.rows other next before row inside

theorem Traced.write {id : Text} (traced : Traced s) (grown : s.log ⊆ log)
    (token : doc.claimToken = [] ∨ (∃ old, s.docs[id]? = some old ∧ old.claimToken = doc.claimToken) ∨
      ∃ (index : Nat) (call : Call), s.calls[index]? = some call ∧ call.token = some doc.claimToken ∧
        LeasedBy log index call.req id) :
    Traced { s with docs := s.docs.insert id doc, log } where
  named := traced.named
  distinct := traced.distinct
  carried other next stored own named key row present carries := by
    rw [get_insert] at present
    by_cases same : id = key
    · rw [if_pos same, Option.some.injEq] at present
      subst same present
      rcases token with empty | ⟨old, before, kept⟩ | ⟨index, call, found, holds, leased⟩
      · rw [empty] at carries
        subst carries
        exact absurd named (traced.named other next stored)
      · exact (traced.carried other next stored own named id old before (kept.trans carries)).mono grown
      · have sameToken : next.token = call.token := by rw [named, holds, carries]
        obtain rfl := traced.distinct other index next call stored found sameToken (by simp [named])
        obtain rfl : next = call := Option.some.inj (stored.symm.trans found)
        exact leased
    · rw [if_neg same] at present
      exact (traced.carried other next stored own named key row present carries).mono grown
  rows other next stored row inside := (traced.rows other next stored row inside).mono grown

theorem Traced.start (traced : Traced s) (req : ClaimRequest) :
    Traced { s with calls := s.calls ++ [⟨req, .finding []⟩] } := by
  have origin : ∀ (other : Nat) call, (s.calls ++ [(⟨req, .finding []⟩ : Call)])[other]? = some call →
      s.calls[other]? = some call ∨ call = ⟨req, .finding []⟩ := by
    intro other call stored
    rw [getElem?_append] at stored
    split at stored
    · exact .inl stored
    · exact .inr (mem_singleton.mp (mem_of_getElem? stored))
  constructor
  case named =>
    intro other call stored
    rcases origin other call stored with before | rfl
    · exact traced.named other call before
    · exact fun named => by cases named
  case distinct =>
    intro first second left right storedLeft storedRight same some
    rcases origin first left storedLeft with beforeLeft | rfl
    · rcases origin second right storedRight with beforeRight | rfl
      · exact traced.distinct first second left right beforeLeft beforeRight same some
      · rw [same] at some
        cases some
    · cases some
  case carried =>
    intro other call stored token named
    rcases origin other call stored with before | rfl
    · exact traced.carried other call before token named
    · cases named
  case rows =>
    intro other call stored row inside
    rcases origin other call stored with before | rfl
    · exact traced.rows other call before row inside
    · cases inside

end Trace

structure Sound (s : State) : Prop where
  held : Held s
  traced : Traced s

variable {next : State}

theorem Sound.advance (sound : Sound s) (advances : ∀ call after, phase call = some after → Advances s call after)
    (stepped : s.advance index phase = some next) : Sound next := by
  obtain ⟨call, found, moved⟩ := Option.bind_eq_some_iff.mp stepped
  obtain ⟨after, reached, rfl⟩ := Option.map_eq_some_iff.mp moved
  exact ⟨⟨sound.held.leased, sound.held.alternates⟩, sound.traced.advance found (advances call after reached)⟩

/-- A writer that clears the token gives the lease up; one that keeps it says
so when it moves the delivery out of leased. -/
theorem Sound.update {id : Text} {happening : DeliveryDoc → Option Happening} (sound : Sound s)
    (logged : ∀ doc entry, happening doc = some entry → entry.isLeased = false)
    (silent : ∀ doc, happening doc = none → doc.status ≠ .leased)
    (token : ∀ doc, (change doc).claimToken = [] ∨ (change doc).claimToken = doc.claimToken)
    (stepped : s.update id test change happening = some next) : Sound next := by
  obtain ⟨doc, stored, moved⟩ := Option.bind_eq_some_iff.mp stepped
  simp only [Option.ite_none_right_eq_some, Option.some.injEq] at moved
  obtain ⟨-, rfl⟩ := moved
  constructor
  · apply sound.held.change (logged doc)
    intro quiet taken
    obtain ⟨old, found, status⟩ := sound.held.leased id taken
    obtain rfl : old = doc := Option.some.inj (found.symm.trans stored)
    exact absurd status (silent old quiet)
  · apply sound.traced.write
    · cases happening doc with
      | none => exact Subset.refl _
      | some entry => exact subset_cons_self _ _
    · rcases token doc with empty | kept
      · exact .inl empty
      · exact .inr (.inl ⟨doc, stored, kept.symm⟩)

theorem Sound.lease {id : Text} (sound : Sound s) (stepped : s.leaseOne index id = some next) : Sound next := by
  obtain ⟨⟨req, phase⟩, found, moved⟩ := Option.bind_eq_some_iff.mp stepped
  cases phase with
  | finding | reading | returned => cases moved
  | leasing ids token left =>
      simp only [Option.ite_none_right_eq_some] at moved
      obtain ⟨-, moved⟩ := moved
      have advances : Advances s ⟨req, .leasing ids token left⟩ (.leasing ids token (left.erase id)) :=
        ⟨.inl rfl, fun row member => by cases member⟩
      have visited := sound.traced.advance found advances
      have unchanged : Sound { s with calls := s.calls.set index ⟨req, .leasing ids token (left.erase id)⟩ } :=
        ⟨⟨sound.held.leased, sound.held.alternates⟩, visited⟩
      cases stored : s.docs[id]? with
      | none =>
          simp only [stored, Option.some.injEq] at moved
          exact moved ▸ unchanged
      | some doc =>
          simp only [stored] at moved
          split at moved
          · rename_i eligible
            cases moved
            have bound := (List.getElem?_eq_some_iff.mp found).1
            refine ⟨sound.held.lease stored eligible, ?_⟩
            refine visited.write (subset_cons_self _ _) (.inr (.inr ?_))
            exact ⟨index, _, getElem?_set_self bound, rfl, doc, mem_cons_self, eligible⟩
          · cases moved
            exact unchanged

theorem sound_step {label : Step} (sound : Sound s) (stepped : step s label = some next) : Sound next := by
  cases label with
  | start req =>
      cases stepped
      exact ⟨⟨sound.held.leased, sound.held.alternates⟩, sound.traced.start req⟩
  | examine index id => exact sound.advance (fun _ _ => examined_advances) stepped
  | pick index token =>
      simp only [step, Option.ite_none_right_eq_some] at stepped
      obtain ⟨fresh, stepped⟩ := stepped
      exact sound.advance (fun _ _ => picked_advances fresh) stepped
  | lease index id => exact sound.lease stepped
  | readBack index id => exact sound.advance (fun _ _ => readFrom_advances) stepped
  | finish index => exact sound.advance (fun _ _ => finished_advances) stepped
  | fail index => exact sound.advance (fun _ _ => failed_advances) stepped
  | complete | release | requeue =>
      exact sound.update (fun _ _ same => by cases same; rfl) (fun _ same => by cases same) (fun _ => .inl rfl) stepped
  | transition now campaignID source target id =>
      refine sound.update ?_ ?_ ?_ stepped
      · intro doc entry same
        simp only [Option.ite_none_right_eq_some, Option.some.injEq] at same
        obtain ⟨-, rfl⟩ := same
        rfl
      · intro doc same leased
        simp [leased] at same
      · exact fun doc => .inr rfl

theorem sound_of_reachable (idle : start.calls = []) (unlogged : start.log = [])
    (reached : system.Reachable start s) : Sound s := by
  apply reached.invariant
  · constructor
    · constructor
      · intro id taken
        rw [unlogged] at taken
        cases taken
      · intro newer id index before older split
        rw [unlogged] at split
        simp at split
    · constructor <;> simp [idle]
  · intro before label after sound _ stepped
    exact sound_step sound stepped

def Call.result (call : Call) : List (Text × DeliveryDoc) :=
  match call.phase with
  | .returned rows => rows
  | .finding _ | .leasing .. | .reading .. => []

theorem rows_of_result (member : row ∈ call.result) : row ∈ call.rows := by
  obtain ⟨req, phase⟩ := call
  cases phase with
  | returned rows => exact member
  | finding | leasing | reading => cases member

/-- Between the updates of the two calls the lease was given up, or the
delivery moved out of leased. -/
def Relinquished (log : List (Text × Happening)) (id : Text) (earlier later : Nat) : Prop :=
  ∃ newer middle older before after,
    log = newer ++ (id, .leased later after) :: (middle ++ (id, .leased earlier before) :: older) ∧
      ∃ entry ∈ middle, entry.1 = id ∧ entry.2.isLeased = false

theorem relinquished_between {id : Text} {before after : DeliveryDoc} (alternates : Alternates log)
    (split : log = newer ++ (id, .leased later after) :: older)
    (member : (id, Happening.leased earlier before) ∈ older) : Relinquished log id earlier later := by
  have ended := alternates newer id later after older split
  obtain ⟨middle, oldest, rfl⟩ := append_of_mem member
  refine ⟨newer, middle, oldest, before, after, split, ?_⟩
  simp only [Taken, latest, find?_append] at ended
  -- The first entry for the delivery in the middle is its latest, and not a lease.
  cases first : middle.find? (fun entry => entry.1 = id) with
  | none => simp [first, Happening.isLeased] at ended
  | some entry =>
      have named := find?_some first
      simp only [first, Bool.not_eq_true] at ended
      exact ⟨entry, mem_of_find?_eq_some first, of_decide_eq_true named, ended⟩

/-- Every row that a call returns was leased by it while it passed the filter, and
a row that two calls return was given up or moved out of leased in between. -/
theorem claims_are_exclusive {start s : State} (idle : start.calls = []) (unlogged : start.log = [])
    (reached : system.Reachable start s) :
    (∀ (index : Nat) call, s.calls[index]? = some call → ∀ row ∈ call.result,
      ∃ before, (row.1, Happening.leased index before) ∈ s.log ∧ claimFilter call.req before = true) ∧
    ∀ (first second : Nat) left right, first ≠ second → s.calls[first]? = some left → s.calls[second]? = some right →
      ∀ row ∈ left.result, ∀ other ∈ right.result, row.1 = other.1 →
        Relinquished s.log row.1 first second ∨ Relinquished s.log row.1 second first := by
  have sound := sound_of_reachable idle unlogged reached
  have leased : ∀ (index : Nat) call, s.calls[index]? = some call → ∀ row ∈ call.result,
      LeasedBy s.log index call.req row.1 := by
    intro index call found row member
    exact sound.traced.rows index call found row (rows_of_result member)
  refine ⟨leased, ?_⟩
  intro first second left right apart foundLeft foundRight row inLeft other inRight same
  obtain ⟨before, logged, -⟩ := leased first left foundLeft row inLeft
  obtain ⟨after, loggedToo, -⟩ := leased second right foundRight other inRight
  rw [← same] at loggedToo
  obtain ⟨newer, older, split⟩ := append_of_mem logged
  have side := loggedToo
  rw [split, mem_append, mem_cons] at side
  rcases side with inNewer | equal | inOlder
  · obtain ⟨newest, middle, parts⟩ := append_of_mem inNewer
    have whole : s.log = newest ++ (row.1, .leased second after) ::
        (middle ++ (row.1, .leased first before) :: older) := by
      rw [split, parts, append_assoc, cons_append]
    exact .inl (relinquished_between sound.held.alternates whole (mem_append_right _ mem_cons_self))
  · cases equal
    exact absurd rfl apart
  · exact .inr (relinquished_between sound.held.alternates split inOlder)

def waiting : State where
  docs := (∅ : Table Text DeliveryDoc).insert (text "d1") { status := .queued, nextAttemptAt := some 1000000 }

def workerRequest : ClaimRequest where
  lane := .bulk
  campaignIDs := none
  limit := 10
  leaseFor := 1000000000
  workerID := text "w1"
  now := 2000000

def claimRun (index : Nat) (token : Text) : List Step :=
  [.start workerRequest, .examine index (text "d1"), .pick index token, .lease index (text "d1"), .finish index,
    .readBack index (text "d1"), .finish index]

def resultIDs (s : State) : List (List Text) :=
  s.calls.map fun call => call.result.map Prod.fst

theorem returned_twice_after_transition :
    ((system.run waiting (claimRun 0 (text "k1") ++ [.transition 3000000 [] [.leased] .queued (text "d1")] ++
        claimRun 1 (text "k2"))).map fun s => (resultIDs s, s.log.any fun entry => entry.2 = .givenUp)) =
      some ([[text "d1"], [text "d1"]], false) := by
  decide +kernel

def releasedRun : List Step :=
  claimRun 0 (text "k1") ++ [.release 2000000000 (text "d1")] ++
    [.start { workerRequest with now := 2000000000 }, .examine 1 (text "d1"), .pick 1 (text "k2"),
      .lease 1 (text "d1"), .finish 1, .readBack 1 (text "d1"), .finish 1]

theorem relinquished_after_release :
    ∃ s, system.run waiting releasedRun = some s ∧ resultIDs s = [[text "d1"], [text "d1"]] ∧
      ∀ (first second : Nat) left right, first ≠ second → s.calls[first]? = some left →
        s.calls[second]? = some right → ∀ row ∈ left.result, ∀ other ∈ right.result, row.1 = other.1 →
          Relinquished s.log row.1 first second ∨ Relinquished s.log row.1 second first := by
  obtain ⟨s, ran, returned⟩ : ∃ s, system.run waiting releasedRun = some s ∧
      resultIDs s = [[text "d1"], [text "d1"]] := by
    have results : (system.run waiting releasedRun).map resultIDs = some [[text "d1"], [text "d1"]] := by
      decide +kernel
    exact Option.map_eq_some_iff.mp results
  exact ⟨s, ran, returned, (claims_are_exclusive rfl rfl (System.reachable_of_run ran)).2⟩

end Sendplane.Mongo
