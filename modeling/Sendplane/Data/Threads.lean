import Mathlib.Algebra.BigOperators.Group.List.Lemmas
import Mathlib.Algebra.GroupWithZero.Nat
import Mathlib.Data.List.Count

namespace Sendplane.Data.Threads

open List

variable {τ : Type*} {weight : τ → Nat} {threads after : List τ} {before : τ}

def total (weight : τ → Nat) (threads : List τ) : Nat :=
  (threads.map weight).sum

@[simp] theorem total_nil : total weight [] = 0 := rfl

@[simp] theorem total_cons (thread : τ) (rest : List τ) :
    total weight (thread :: rest) = weight thread + total weight rest := by
  simp [total]

theorem total_append : total weight (first ++ second) = total weight first + total weight second := by
  simp [total]

theorem total_map {κ : Type} (place : κ → τ) (keys : List κ) :
    total weight (keys.map place) = total (fun key => weight (place key)) keys := by
  simp [total, Function.comp_def]

theorem total_filter {κ : Type} [DecidableEq κ] (key : τ → κ) :
    total (fun group => (threads.filter fun thread => key thread = group).length) (threads.map key).dedup =
      threads.length := by
  have counts : ∀ group, (threads.filter fun thread => key thread = group).length = (threads.map key).count group := by
    intro group
    rw [count_eq_countP, countP_map, countP_eq_length_filter]
    rfl
  calc
    _ = total (fun group => (threads.map key).count group) (threads.map key).dedup := by simp [counts]
    _ = threads.length := by rw [total, sum_map_count_dedup_eq_length, length_map]

theorem total_perm (same : first.Perm second) : total weight first = total weight second := by
  exact (same.map weight).sum_eq

theorem total_set {index : Nat} (found : threads[index]? = some old) :
    total weight (threads.set index new) + weight old = total weight threads + weight new := by
  induction threads generalizing index with
  | nil => simp at found
  | cons thread rest ih =>
      cases index with
      | zero =>
          cases found
          simp only [set_cons_zero, total_cons]
          omega
      | succ index =>
          have later := ih found
          simp only [set_cons_succ, total_cons]
          omega

theorem total_le (below : ∀ thread, weight thread ≤ heavier thread) : total weight threads ≤ total heavier threads := by
  induction threads with
  | nil => simp
  | cons thread rest ih =>
      have first := below thread
      simp only [total_cons]
      omega

theorem total_eq_zero_iff : total weight threads = 0 ↔ ∀ thread ∈ threads, weight thread = 0 := by
  induction threads with
  | nil => simp
  | cons thread rest ih => simp [ih]

theorem weight_le_total (weight : τ → Nat) (member : before ∈ threads) : weight before ≤ total weight threads := by
  induction member with
  | head rest => simp
  | tail thread _ ih =>
      simp only [total_cons]
      omega

theorem countP_eq_total : threads.countP test = total (fun thread => if test thread then 1 else 0) threads := by
  induction threads with
  | nil => rfl
  | cons thread rest ih =>
      rw [countP_cons, total_cons]
      omega

theorem filterMap_set {index : Nat} (pick : τ → Option κ) (found : threads[index]? = some old) :
    ∃ others, (threads.filterMap pick).Perm ((pick old).toList ++ others) ∧
      ∀ new, ((threads.set index new).filterMap pick).Perm ((pick new).toList ++ others) := by
  induction threads generalizing index with
  | nil => simp at found
  | cons thread rest ih =>
      have head (first : τ) (more : List τ) :
          (first :: more).filterMap pick = (pick first).toList ++ more.filterMap pick := by
        cases picked : pick first with
        | none | some => simp [picked]
      cases index with
      | zero =>
          cases found
          refine ⟨rest.filterMap pick, by rw [head], fun new => ?_⟩
          rw [set_cons_zero, head]
      | succ index =>
          obtain ⟨others, before, after⟩ := ih found
          have skip {more : List τ} {key : List κ} (same : (more.filterMap pick).Perm (key ++ others)) :
              ((thread :: more).filterMap pick).Perm (key ++ ((pick thread).toList ++ others)) := by
            rw [head]
            exact (same.append_left _).trans (perm_append_comm_assoc _ _ _)
          exact ⟨(pick thread).toList ++ others, skip before, fun new => skip (after new)⟩

variable [DecidableEq τ]

/-- One thread leaves the phase `before`; a thread that ends leaves nothing. -/
def replace (threads : List τ) (before : τ) (after : List τ) : List τ :=
  after ++ threads.erase before

theorem total_replace (weight : τ → Nat) (after : List τ) (member : before ∈ threads) :
    total weight (replace threads before after) + weight before = total weight threads + total weight after := by
  have split : total weight threads = _ := total_perm (perm_cons_erase member)
  rw [total_cons] at split
  rw [replace, total_append]
  omega

theorem mem_replace (member : thread ∈ replace threads before after) : thread ∈ after ∨ thread ∈ threads := by
  rcases mem_append.mp member with new | old
  · exact .inl new
  · exact .inr (mem_of_mem_erase old)

end Sendplane.Data.Threads
