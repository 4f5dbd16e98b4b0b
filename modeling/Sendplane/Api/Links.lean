import Sendplane.Data.Threads
import Sendplane.Memstore.Provider

namespace Sendplane.Api

open Data Data.Threads Store Memstore List

/-- A line of the report.  A personalised link has one number and many URLs. -/
structure LinkClick where
  linkNo : Int := 0
  url : Text := []
  clicks : Nat := 0
  uniqueClicks : Nat := 0

def clickEvents (campaignID : Text) (s : TenantStore) : List TrackingEvent :=
  (s.tracking.toList.map Prod.snd).filter fun e => e.campaignID = campaignID && e.kind = .click && !e.suspectedBot

/-- The order of the lines of the report. -/
def Before (left right : LinkClick) : Prop :=
  left.linkNo < right.linkNo ∨ left.linkNo = right.linkNo ∧ left.url ≤ right.url

instance : DecidableRel Before := fun _ _ => inferInstanceAs (Decidable (_ ∨ _))

/-- The in-memory store aggregates in a map by URL, PostgreSQL by `GROUP BY url`. -/
def linkClicks (campaignID : Text) (s : TenantStore) : List LinkClick :=
  (((clickEvents campaignID s).map TrackingEvent.url).dedup.map fun url =>
    let group := (clickEvents campaignID s).filter fun e => e.url = url
    { linkNo := (group.map TrackingEvent.linkNo).min?.getD 0
      url
      clicks := group.length
      uniqueClicks := (group.map TrackingEvent.deliveryID).dedup.length }).insertionSort Before

def Differ (left right : LinkClick) : Prop :=
  left.linkNo ≠ right.linkNo

instance : DecidableRel Differ := fun _ _ => inferInstanceAs (Decidable (_ ≠ _))

def clampInt32 (n : Int) : Int :=
  max (-2 ^ 31) (min n (2 ^ 31 - 1))

/-- The links of the version with their counts, and the counts that are left. -/
def joinLinks : Nat → List Text → List LinkClick → List LinkClick × List LinkClick
  | _, [], byNo => ([], byNo)
  | i, url :: rest, byNo =>
      let lc := (byNo.find? fun lc => lc.linkNo = (i : Int)).getD {}
      let (items, left) := joinLinks (i + 1) rest (byNo.filter fun lc => lc.linkNo ≠ (i : Int))
      ({ lc with linkNo := clampInt32 i, url } :: items, left)

def linkItems (counts : List LinkClick) (links : List Text) : List LinkClick :=
  -- In a map by number, a later row replaces an earlier one.
  let byNo := (counts.filter fun lc => 0 ≤ lc.linkNo).pwFilter Differ
  let extra := counts.filter fun lc => !decide (0 ≤ lc.linkNo)
  let (items, byNo) := joinLinks 0 links byNo
  items ++ (byNo.insertionSort (fun left right => left.linkNo ≤ right.linkNo) ++ extra).map fun lc =>
    { lc with linkNo := clampInt32 lc.linkNo }

def versionLinks (tenantID : Text) (c : Campaign) (p : Provider) : Except Err (List Text) :=
  if c.versionID = [] then .ok []
  else match p.versionGet tenantID c.versionID with
    | .ok v => .ok v.links
    | .error e => if e.kind ≠ .notFound then .error e else .ok []

def listCampaignLinks (tenantID campaignID : Text) (p : Provider) : Except Err (List LinkClick) :=
  match (p.tenants tenantID).campaignGet campaignID with
  | .error e => .error e
  | .ok c => (versionLinks tenantID c p).map (linkItems (linkClicks c.id (p.tenants tenantID)))

def clicks (rows : List LinkClick) : Nat :=
  total (fun row => row.clicks) rows

theorem clicks_sublist (sublist : kept.Sublist rows) (positive : ∀ row ∈ rows, 0 < row.clicks) :
    clicks kept ≤ clicks rows ∧ (clicks kept = clicks rows ↔ kept = rows) := by
  induction sublist with
  | slnil => simp
  | cons row sublist ih =>
      rw [forall_mem_cons] at positive
      have fewer := ih positive.2
      rw [clicks, clicks, total_cons] at *
      refine ⟨by omega, fun same => by omega, ?_⟩
      rintro rfl
      exact absurd sublist.length_le (by simp)
  | cons_cons row sublist ih =>
      have fewer := ih (forall_mem_cons.mp positive).2
      simpa [clicks] using fewer

theorem clicks_taken (distinct : rows.Pairwise Differ) (number : Int) :
    ((rows.find? fun lc => lc.linkNo = number).getD {}).clicks + clicks (rows.filter fun lc => lc.linkNo ≠ number) =
      clicks rows := by
  induction rows with
  | nil => rfl
  | cons row rest ih =>
      obtain ⟨new, others⟩ := pairwise_cons.mp distinct
      by_cases same : row.linkNo = number
      · subst same
        have untouched : rest.filter (fun lc => lc.linkNo ≠ row.linkNo) = rest :=
          filter_eq_self.mpr fun lc member => by simpa using (new lc member).symm
        simp only [find?_cons, filter_cons, untouched]
        simp [clicks]
      · have later := ih others
        simp [clicks, same] at later ⊢
        omega

theorem joinLinks_clicks (distinct : rows.Pairwise Differ) (i : Nat) (links : List Text) :
    clicks (joinLinks i links rows).1 + clicks (joinLinks i links rows).2 = clicks rows := by
  induction links generalizing i rows with
  | nil => simp [joinLinks, clicks]
  | cons url rest ih =>
      have others := ih (distinct.filter fun lc => lc.linkNo ≠ (i : Int)) (i + 1)
      have taken := clicks_taken distinct i
      simp only [joinLinks, clicks, total_cons] at *
      omega

theorem linkItems_clicks_iff (positive : ∀ row ∈ rows, 0 < row.clicks) :
    clicks (linkItems rows links) = clicks rows ↔ (rows.filter fun lc => 0 ≤ lc.linkNo).Pairwise Differ := by
  have split : total (fun row : LinkClick => row.clicks) _ = _ :=
    total_perm (filter_append_perm (fun lc => decide (0 ≤ lc.linkNo)) rows)
  have joined := joinLinks_clicks (pairwise_pwFilter (rows.filter fun lc => 0 ≤ lc.linkNo)) 0 links
  have fewer := clicks_sublist (pwFilter_sublist (R := Differ) (rows.filter fun lc => 0 ≤ lc.linkNo))
    fun row member => positive row (mem_filter.mp member).1
  simp only [clicks, linkItems, total_append, total_map, total_perm (perm_insertionSort _ _)] at *
  rw [← pwFilter_eq_self, ← fewer.2]
  omega

theorem linkClicks_clicks : clicks (linkClicks campaignID s) = (clickEvents campaignID s).length ∧
      ∀ row ∈ linkClicks campaignID s, 0 < row.clicks := by
  constructor
  · rw [clicks, linkClicks, total_perm (perm_insertionSort _ _), total_map]
    exact total_filter TrackingEvent.url
  · intro row member
    rw [linkClicks, (perm_insertionSort _ _).mem_iff, mem_map] at member
    obtain ⟨url, known, rfl⟩ := member
    obtain ⟨e, clicked, rfl⟩ := mem_map.mp (mem_dedup.mp known)
    exact length_pos_of_mem (mem_filter.mpr ⟨clicked, by simp⟩)

/-- The report has every click exactly if no two URLs share the smallest number
under which they were clicked. -/
theorem listCampaignLinks_complete_iff (p : Provider) (tenantID campaignID : Text) {c : Campaign}
    {items : List LinkClick} (found : (p.tenants tenantID).campaignGet campaignID = .ok c)
    (answered : listCampaignLinks tenantID campaignID p = .ok items) :
    clicks (linkClicks c.id (p.tenants tenantID)) = (clickEvents c.id (p.tenants tenantID)).length ∧
      (clicks items = clicks (linkClicks c.id (p.tenants tenantID)) ↔
        ((linkClicks c.id (p.tenants tenantID)).filter fun lc => 0 ≤ lc.linkNo).Pairwise Differ) := by
  obtain ⟨total, positive⟩ := linkClicks_clicks
  refine ⟨total, ?_⟩
  rw [listCampaignLinks, found] at answered
  cases read : versionLinks tenantID c p with
  | error e => simp [read, Except.map] at answered
  | ok links =>
      simp only [read, Except.map, Except.ok.injEq] at answered
      exact answered ▸ linkItems_clicks_iff positive

def newsletter (clicked : List (Int × Text)) : Provider where
  tenants tenantID := {
    tenant := tenantID
    campaigns := (∅ : Table Text Campaign).insert (text "c1") { id := text "c1", versionID := text "v1" }
    versions := (∅ : Table Text MessageVersion).insert (text "v1") { links := [text "/?u=*", text "/y"] }
    tracking := clicked.foldl (fun events (linkNo, url) =>
      events.insert (replicate events.size 101) { campaignID := text "c1", kind := .click, linkNo, url }) ∅ }

/-- One URL is clicked twice and one has no number. -/
def fourClicks : List (Int × Text) :=
  [(0, text "/?u=1"), (1, text "/y"), (-1, text "/z"), (1, text "/y")]

theorem plain_links_complete :
    ∃ items, listCampaignLinks (text "t") (text "c1") (newsletter fourClicks) = .ok items ∧ clicks items = 4 := by
  obtain ⟨total, complete⟩ := listCampaignLinks_complete_iff (newsletter fourClicks) (text "t") (text "c1") rfl rfl
  exact ⟨_, rfl, (complete.mpr (by decide +kernel)).trans (total.trans (by decide +kernel))⟩

/-- Two recipients click the URL that the same link has for them. -/
theorem personal_urls_dropped :
    (clickEvents (text "c1") ((newsletter [(0, text "/?u=1"), (0, text "/?u=2")]).tenants (text "t"))).length = 2 ∧
      (listCampaignLinks (text "t") (text "c1") (newsletter [(0, text "/?u=1"), (0, text "/?u=2")])).toOption.map
        clicks = some 1 := by
  decide +kernel

end Sendplane.Api
