import Sendplane.Data.Checks
import Sendplane.Tracking.RoundTrip

namespace Sendplane.Probe.Sigv1

open Data Data.Strings Store Checks List
open Sendplane.Tracking (cut cut_append)

def second : Duration := 1000000000
def defaultTolerance : Duration := 300000000000
def maxDuration : Int := 9223372036854775807

/-- The seconds from Go's zero time to the Unix epoch. -/
def unixToInternal : Int := 62135596800

/-- What is left of a sum in 64 bits. -/
def int64 (value : Int) : Int :=
  (value + 2 ^ 63) % 2 ^ 64 - 2 ^ 63

theorem int64_of_mem {value : Int} (low : -2 ^ 63 ≤ value) (high : value < 2 ^ 63) : int64 value = value := by
  rw [int64]
  omega

/-- The instant that `time.Unix` builds. -/
def unixTime (unix : Int) : Time :=
  int64 (unix + unixToInternal) * second

def unixOf (t : Time) : Int :=
  int64 (t / second - unixToInternal)

/-- A difference that does not fit a duration is the largest or the smallest one. -/
def sub (t u : Int) : Int :=
  max (-2 ^ 63) (min (t - u) (2 ^ 63 - 1))

def instant (unix : Int) : Time :=
  (unix + unixToInternal) * second

inductive SigError where
  | noSecret
  | noHeader
  | notPair (elem : Text)
  | badTimestamp (value : Text)
  | twoTimestamps
  | badDigest
  | noTimestamp
  | noDigest
  | skewed (skew tolerance : Duration)
  | undecodable
  | noMatch
deriving DecidableEq

def elemTimestamp : Text := text "t"
def elemV1 : Text := text "v1"
def digestSize : Nat := 32

structure Parsed where
  unix : Int := 0
  haveTS : Bool := false
  digests : List Text := []

def parseElem (st : Parsed) (elem : Text) : Except SigError Parsed :=
  match cut (trimSpace elem) 61 with
  | none => .error (.notPair elem)
  | some (name, value) =>
      if trimSpace name = elemTimestamp then
        match parseInt (trimSpace value) with
        | none => .error (.badTimestamp value)
        | some n =>
            if st.haveTS ∧ n ≠ st.unix then .error .twoTimestamps
            else .ok { st with unix := n, haveTS := true }
      else if trimSpace name = elemV1 then
        match unhex (trimSpace value) with
        | none => .error .badDigest
        | some sum =>
            if sum.length ≠ digestSize then .error .badDigest
            else .ok { st with digests := st.digests ++ [sum] }
      -- A scheme that is not known yet.
      else .ok st

def parse (header : Text) : Except SigError (Int × List Text) := do
  let header := trimSpace header
  if header = [] then throw .noHeader
  else
    let st ← (header.splitOn 44).foldlM parseElem {}
    if st.haveTS = false then throw .noTimestamp
    else if st.digests.length = 0 then throw .noDigest
    else return (st.unix, st.digests)

section

variable (hmac : Text → Text → Text)

def signed (unix : Int) (body : Text) : Text :=
  itoa unix ++ 46 :: body

def digest (secret : Text) (unix : Int) (body : Text) : Text :=
  hex (hmac secret (signed unix body))

def sign (secret : Text) (t : Time) (body : Text) : Text :=
  elemTimestamp ++ 61 :: itoa (unixOf t) ++ 44 :: elemV1 ++ 61 :: digest hmac secret (unixOf t) body

def matchKeys (unix : Int) (body : Text) (sums : List Text) : List Text → Except SigError Unit
  | [] => .error .noMatch
  | key :: rest =>
      match unhex (digest hmac key unix body) with
      | none => .error .undecodable
      | some want => if sums.any (· = want) then .ok () else matchKeys unix body sums rest

/-- The default stands for a tolerance that is not positive. -/
def effective (tolerance : Duration) : Duration :=
  if tolerance ≤ 0 then defaultTolerance else tolerance

def verify (header body : Text) (secrets : List Text) (now : Time) (tolerance : Duration) :
    Except SigError Unit := do
  let keys := secrets.filter (· ≠ [])
  if keys.length = 0 then throw .noSecret
  else
    let (unix, sums) ← parse header
    let skew := sub now (unixTime unix)
    if skew > effective tolerance ∨ skew < -effective tolerance then
      throw (.skewed skew (effective tolerance))
    else matchKeys hmac unix body sums keys

end

inductive Element where
  | timestamp (unix : Int)
  | digest (sum : Text)
  | other

def Element.sum : Element → Option Text
  | .digest sum => some sum
  | _ => none

/-- The meaning of one element; it has to be well formed unless its name is not known. -/
def element (elem : Text) : Option Element :=
  match cut (trimSpace elem) 61 with
  | none => none
  | some (name, value) =>
      if trimSpace name = elemTimestamp then (parseInt (trimSpace value)).map .timestamp
      else if trimSpace name = elemV1 then
        ((unhex (trimSpace value)).filter fun sum => sum.length = digestSize).map .digest
      else some .other

/-- The header has a timestamp, all its timestamps are `unix`, and `sums` are its
digests, of which there is one at least. -/
def WellFormed (header : Text) (unix : Int) (sums : List Text) : Prop :=
  ∃ elems, ((trimSpace header).splitOn 44).mapM element = some elems ∧
    .timestamp unix ∈ elems ∧ (∀ other, .timestamp other ∈ elems → other = unix) ∧
    sums = elems.filterMap Element.sum ∧ sums ≠ []

/-- What an element adds to what was read before it. -/
def Parsed.absorb (st : Parsed) : Element → Option Parsed
  | .timestamp unix => if st.haveTS ∧ unix ≠ st.unix then none else some { st with unix, haveTS := true }
  | .digest sum => some { st with digests := st.digests ++ [sum] }
  | .other => some st

theorem parseElem_toOption (st : Parsed) (elem : Text) :
    (parseElem st elem).toOption = (element elem).bind st.absorb := by
  rw [parseElem, element]
  cases cut (trimSpace elem) 61 with
  | none => rfl
  | some pair =>
      obtain ⟨name, value⟩ := pair
      dsimp only
      split
      · cases parseInt (trimSpace value) with
        | none => rfl
        | some n =>
            simp only [Option.map_some, Option.bind_some, Parsed.absorb]
            split <;> rfl
      · split
        · cases unhex (trimSpace value) with
          | none => rfl
          | some sum =>
              simp only [Option.filter]
              by_cases sized : sum.length = digestSize
              · simp only [sized, ne_eq, not_true_eq_false, if_false, decide_true, if_true]
                rfl
              · simp only [sized, ne_eq, not_false_eq_true, if_true, decide_false, Bool.false_eq_true, if_false]
                rfl
        · rfl

theorem foldlM_toOption (list : List Text) (st : Parsed) :
    (list.foldlM parseElem st).toOption = (list.mapM element).bind fun elems => elems.foldlM Parsed.absorb st := by
  induction list generalizing st with
  | nil => rfl
  | cons elem rest ih =>
      have step := parseElem_toOption st elem
      rw [foldlM_cons, mapM_cons]
      cases meaning : element elem with
      | none =>
          rw [meaning, Option.bind_none] at step
          cases parsed : parseElem st elem with
          | error e => rfl
          | ok next => simp [parsed, Except.toOption] at step
      | some meaning' =>
          rw [meaning, Option.bind_some] at step
          cases parsed : parseElem st elem with
          | error e =>
              rw [parsed] at step
              simp only [bind, Option.bind, Except.bind, Except.toOption] at step ⊢
              cases mapM element rest with
              | none => rfl
              | some elems => simp [pure, ← step, bind, Option.bind]
          | ok next =>
              rw [parsed] at step
              simp only [bind, Option.bind, Except.bind, Except.toOption] at step ⊢
              have later := ih next
              simp only [Except.toOption] at later
              rw [later]
              cases mapM element rest with
              | none => rfl
              | some elems => simp [pure, ← step, bind, Option.bind]

theorem absorb_all {elems : List Element} {st result : Parsed} :
    elems.foldlM Parsed.absorb st = some result ↔ (∀ unix, .timestamp unix ∈ elems → unix = result.unix) ∧
      (st.haveTS ∨ (∀ unix, .timestamp unix ∉ elems) → result.unix = st.unix) ∧
      (result.haveTS = true ↔ st.haveTS = true ∨ ∃ unix, .timestamp unix ∈ elems) ∧
      result.digests = st.digests ++ elems.filterMap Element.sum := by
  induction elems generalizing st with
  | nil =>
      simp only [foldlM_nil, pure, Option.some.injEq, not_mem_nil, false_implies, implies_true,
        not_false_eq_true, or_true, exists_false, or_false, filterMap_nil, append_nil, true_and,
        forall_const]
      cases st
      cases result
      simp only [Parsed.mk.injEq]
      constructor
      · rintro ⟨rfl, rfl, rfl⟩
        exact ⟨rfl, Iff.rfl, rfl⟩
      · rintro ⟨unix, flag, digests⟩
        exact ⟨unix.symm, (Bool.eq_iff_iff.mpr flag).symm, digests.symm⟩
  | cons elem rest ih =>
      rw [foldlM_cons]
      cases elem with
      | timestamp unix =>
          simp only [Parsed.absorb, bind]
          by_cases clash : st.haveTS = true ∧ unix ≠ st.unix
          · rw [if_pos clash, Option.bind_none]
            constructor
            · intro impossible
              cases impossible
            · rintro ⟨agree, kept, -⟩
              exact absurd ((agree unix mem_cons_self).trans (kept (.inl clash.1))) clash.2
          · rw [if_neg clash, Option.bind_some, ih]
            have same : st.haveTS = true → unix = st.unix := by
              intro seen
              by_contra different
              exact clash ⟨seen, different⟩
            constructor
            · rintro ⟨agree, kept, flag, digests⟩
              have value : result.unix = unix := kept (.inl rfl)
              refine ⟨?_, ?_, ?_, digests⟩
              · intro other member
                rcases mem_cons.mp member with here | later
                · rw [Element.timestamp.injEq] at here
                  rw [here, value]
                · exact agree other later
              · rintro (seen | absent)
                · exact value.trans (same seen)
                · exact absurd mem_cons_self (absent unix)
              · exact ⟨fun _ => .inr ⟨unix, mem_cons_self⟩, fun _ => flag.mpr (.inl rfl)⟩
            · rintro ⟨agree, kept, flag, digests⟩
              refine ⟨fun other member => agree other (mem_cons_of_mem _ member), fun _ => ?_, ?_, digests⟩
              · exact (agree unix mem_cons_self).symm
              · exact ⟨fun _ => .inl rfl, fun _ => flag.mpr (.inr ⟨unix, mem_cons_self⟩)⟩
      | digest | other =>
          simp only [Parsed.absorb, bind, Option.bind_some]
          rw [ih]
          simp [filterMap_cons, Element.sum]

theorem toOption_eq_some {ε α : Type} {e : Except ε α} {value : α} : e.toOption = some value ↔ e = .ok value := by
  cases e <;> simp [Except.toOption]

theorem parse_ok_iff : parse header = .ok (unix, sums) ↔ WellFormed header unix sums := by
  have whole := foldlM_toOption ((trimSpace header).splitOn 44) {}
  have empty : trimSpace header = [] → ((trimSpace header).splitOn 44).mapM element = none := by
    intro nothing
    rw [nothing]
    decide
  rw [parse, WellFormed]
  by_cases nothing : trimSpace header = []
  · simp only [nothing, if_true] at *
    constructor
    · intro impossible
      cases impossible
    · rintro ⟨elems, read, -⟩
      cases read
  · simp only [nothing, if_false]
    constructor
    · intro accepted
      obtain ⟨st, folded, checked⟩ := bind_ok accepted
      rw [folded] at whole
      cases read : ((trimSpace header).splitOn 44).mapM element with
      | none =>
          rw [read] at whole
          cases whole
      | some elems =>
          rw [read, Option.bind_some] at whole
          obtain ⟨agree, -, flag, digests⟩ := absorb_all.mp whole.symm
          split at checked
          · cases checked
          split at checked
          · cases checked
          next seen nonempty =>
          obtain ⟨rfl, rfl⟩ := Prod.mk.inj (Except.ok.inj checked)
          rw [Bool.not_eq_false] at seen
          obtain ⟨other, member⟩ := (flag.mp seen).resolve_left Bool.false_ne_true
          have same := agree other member
          refine ⟨elems, rfl, same ▸ member, agree, digests, ?_⟩
          intro none
          rw [none] at nonempty
          exact nonempty rfl
    · rintro ⟨elems, read, member, agree, rfl, nonempty⟩
      have absorbed : elems.foldlM Parsed.absorb {} =
          some { unix, haveTS := true, digests := elems.filterMap Element.sum } :=
        absorb_all.mpr ⟨agree, fun absent => absurd member (absent.resolve_left Bool.false_ne_true unix),
          ⟨fun _ => .inr ⟨unix, member⟩, fun _ => rfl⟩, rfl⟩
      rw [read, Option.bind_some, absorbed, toOption_eq_some] at whole
      rw [whole]
      simp only [bind, Except.bind, Bool.true_eq_false, if_false, length_eq_zero_iff, nonempty]
      rfl

variable {unix : Int}

theorem element_timestamp {elem : Text} (meaning : element elem = some (.timestamp unix)) :
    -2 ^ 63 ≤ unix ∧ unix < 2 ^ 63 := by
  rw [element] at meaning
  split at meaning
  · cases meaning
  · split at meaning
    · obtain ⟨value, parsed, same⟩ := Option.map_eq_some_iff.mp meaning
      rw [Element.timestamp.injEq] at same
      exact same ▸ parseInt_mem parsed
    · split at meaning
      · obtain ⟨sum, -, impossible⟩ := Option.map_eq_some_iff.mp meaning
        cases impossible
      · cases meaning

theorem WellFormed.range {header : Text} {sums : List Text} (formed : WellFormed header unix sums) :
    -2 ^ 63 ≤ unix ∧ unix < 2 ^ 63 := by
  obtain ⟨elems, read, member, -⟩ := formed
  obtain ⟨elem, -, meaning⟩ := exists_of_mapM read member
  exact element_timestamp meaning

theorem WellFormed.unique {header : Text} {other : Int} {sums others : List Text}
    (formed : WellFormed header unix sums) (again : WellFormed header other others) : unix = other ∧ sums = others := by
  have first := parse_ok_iff.mpr formed
  rw [parse_ok_iff.mpr again] at first
  obtain ⟨rfl, rfl⟩ := Prod.mk.inj (Except.ok.inj first)
  exact ⟨rfl, rfl⟩

section

variable (hmac : Text → Text → Text)

/-- Some digest is that of the body under some secret. -/
def Matches (unix : Int) (sums : List Text) (body : Text) (secrets : List Text) : Prop :=
  ∃ secret ∈ secrets, secret ≠ [] ∧ hmac secret (signed unix body) ∈ sums

/-- A well-formed header, in time, with a digest that matches. -/
def Accepts (header body : Text) (secrets : List Text) (now : Time) (tolerance : Duration) : Prop :=
  ∃ unix sums, WellFormed header unix sums ∧ (now - instant unix).natAbs ≤ effective tolerance ∧
    Matches hmac unix sums body secrets

/-- Whether the clock arithmetic is right about the tolerance.  It is not for a
difference larger than every duration under the largest tolerance; and a timestamp
for which `time.Unix` overflows is read as one `2 ^ 64` seconds earlier. -/
def ClockAgrees (now : Time) (unix : Int) (tolerance : Duration) : Prop :=
  if unix + unixToInternal < 2 ^ 63 then ¬(tolerance = maxDuration ∧ maxDuration < now - instant unix)
  else if tolerance = maxDuration then
    now - instant (unix - 2 ^ 64) < -maxDuration ∨ (now - instant unix).natAbs ≤ maxDuration
  else tolerance < (now - instant (unix - 2 ^ 64)).natAbs ∧ tolerance < (now - instant unix).natAbs

end

section

variable {unix : Int}

theorem matchKeys_ok_iff {sums keys : List Text} :
    matchKeys hmac unix body sums keys = .ok () ↔ ∃ key ∈ keys, hmac key (signed unix body) ∈ sums := by
  induction keys with
  | nil => simp [matchKeys]
  | cons key rest ih =>
      simp only [matchKeys, digest, unhex_hex, any_eq_true, decide_eq_true_eq, exists_eq_right,
        mem_cons, exists_eq_or_imp]
      by_cases here : hmac key (signed unix body) ∈ sums
      · simp [here]
      · simp [here, ih]

theorem effective_pos : 0 < effective tolerance := by
  rw [effective]
  split
  · decide
  next positive => exact Int.not_le.mp positive

theorem effective_le (bound : tolerance ≤ maxDuration) : effective tolerance ≤ maxDuration := by
  rw [effective]
  split
  · decide
  · exact bound

theorem tolerated_iff {t u tolerance : Int} (positive : 0 < tolerance) (bound : tolerance ≤ maxDuration) :
    ¬(sub t u > tolerance ∨ sub t u < -tolerance) ↔
      (t - u).natAbs ≤ tolerance ∨ tolerance = maxDuration ∧ maxDuration < t - u := by
  unfold sub
  unfold maxDuration at bound ⊢
  omega

theorem verify_ok_iff {header : Text} {secrets : List Text} {now : Time} (bound : tolerance ≤ maxDuration) :
    verify hmac header body secrets now tolerance = .ok () ↔
      ∃ unix sums, WellFormed header unix sums ∧ Matches hmac unix sums body secrets ∧
        ((now - unixTime unix).natAbs ≤ effective tolerance ∨
          effective tolerance = maxDuration ∧ maxDuration < now - unixTime unix) := by
  have tolerated (unix : Int) := tolerated_iff (t := now) (u := unixTime unix) effective_pos
    (effective_le bound)
  rw [verify]
  by_cases unusable : (secrets.filter (· ≠ [])).length = 0
  · simp only [unusable, if_true]
    constructor
    · intro impossible
      cases impossible
    · rintro ⟨unix, sums, -, ⟨secret, member, nonempty, -⟩, -⟩
      have usable : secret ∈ secrets.filter (· ≠ []) := mem_filter.mpr ⟨member, by simpa using nonempty⟩
      rw [length_eq_zero_iff.mp unusable] at usable
      cases usable
  · rw [if_neg unusable]
    constructor
    · intro accepted
      obtain ⟨⟨unix, sums⟩, parsed, checked⟩ := bind_ok accepted
      dsimp only at checked
      split at checked
      · cases checked
      next inside =>
        obtain ⟨key, member, found⟩ := matchKeys_ok_iff.mp checked
        obtain ⟨configured, nonempty⟩ := mem_filter.mp member
        refine ⟨unix, sums, parse_ok_iff.mp parsed, ⟨key, configured, ?_, found⟩, (tolerated unix).mp inside⟩
        simpa using nonempty
    · rintro ⟨unix, sums, formed, ⟨secret, member, nonempty, found⟩, inside⟩
      rw [parse_ok_iff.mpr formed]
      simp only [bind, Except.bind]
      rw [if_neg ((tolerated unix).mpr inside)]
      exact matchKeys_ok_iff.mpr ⟨secret, mem_filter.mpr ⟨member, by simpa using nonempty⟩, found⟩

theorem unixTime_eq (low : -2 ^ 63 ≤ unix) (high : unix + unixToInternal < 2 ^ 63) : unixTime unix = instant unix := by
  rw [unixTime, instant, int64_of_mem _ high]
  simp only [unixToInternal]
  omega

theorem unixTime_overflow (high : unix < 2 ^ 63) (past : 2 ^ 63 ≤ unix + unixToInternal) :
    unixTime unix = instant (unix - 2 ^ 64) := by
  have wrapped : int64 (unix + unixToInternal) = unix - 2 ^ 64 + unixToInternal := by
    unfold int64 unixToInternal at *
    omega
  rw [unixTime, instant, wrapped]

/-- The two instants are too far apart for the clock to be near both. -/
theorem agrees_apart {now t early tolerance : Int} (apart : t - early = 18446744073709551616000000000)
    (bound : tolerance ≤ maxDuration) :
    (if tolerance = maxDuration then now - early < -maxDuration ∨ (now - t).natAbs ≤ maxDuration
      else tolerance < (now - early).natAbs ∧ tolerance < (now - t).natAbs) ↔
      ((now - early).natAbs ≤ tolerance ∨ tolerance = maxDuration ∧ maxDuration < now - early ↔
        (now - t).natAbs ≤ tolerance) := by
  have size : maxDuration = 9223372036854775807 := rfl
  split
  next largest =>
    subst largest
    have late : (now - t).natAbs ≤ maxDuration → ¬now - early < -maxDuration := by omega
    have accepted : (now - early).natAbs ≤ maxDuration ∨ maxDuration < now - early ↔ ¬now - early < -maxDuration := by
      omega
    rw [eq_self, true_and, accepted]
    tauto
  next smaller =>
    have either : ¬((now - early).natAbs ≤ tolerance ∧ (now - t).natAbs ≤ tolerance) := by omega
    simp only [smaller, false_and, or_false, ← not_le]
    tauto

theorem clockAgrees_iff {now : Time} (range : -2 ^ 63 ≤ unix ∧ unix < 2 ^ 63) (bound : tolerance ≤ maxDuration) :
    ClockAgrees now unix tolerance ↔
      ((now - unixTime unix).natAbs ≤ tolerance ∨ tolerance = maxDuration ∧ maxDuration < now - unixTime unix ↔
        (now - instant unix).natAbs ≤ tolerance) := by
  rw [ClockAgrees]
  split
  next small =>
    rw [unixTime_eq range.1 small]
    constructor
    · intro fits
      exact or_iff_left fits
    · rintro agrees ⟨largest, longer⟩
      have inside := agrees.mp (.inr ⟨largest, longer⟩)
      rw [largest] at inside
      exact absurd (Int.lt_of_lt_of_le longer (Int.le_natAbs.trans inside)) (Int.lt_irrefl _)
  next large =>
    rw [unixTime_overflow range.2 (Int.not_lt.mp large)]
    exact agrees_apart (by unfold instant second; omega) bound

theorem signed_inj {other : Int} {body' : Text} (same : signed unix body = signed other body') :
    unix = other ∧ body = body' := by
  have free (value : Int) : (46 : UInt8) ∉ itoa value := by
    intro member
    rcases itoa_char member with sign | digit
    · exact absurd sign (by decide)
    · exact absurd digit.1 (by decide)
  obtain ⟨digits, rest⟩ := append_sep_inj (free unix) (free other) same
  exact ⟨itoa_inj digits, rest⟩

variable {char : UInt8}

theorem visible_of_range (low : 33 ≤ char.toNat) (high : char.toNat ≤ 126) : visible char = true := by
  rw [visible, Bool.and_eq_true, decide_eq_true_eq, decide_eq_true_eq, UInt8.lt_iff_toNat_lt, UInt8.lt_iff_toNat_lt]
  simp only [UInt8.reduceToNat]
  omega

theorem itoa_visible {value : Int} (member : char ∈ itoa value) : visible char = true := by
  rcases itoa_char member with rfl | ⟨low, high⟩
  · decide
  · exact visible_of_range (by omega) (by omega)

theorem hex_visible {bytes : Text} (member : char ∈ hex bytes) : visible char = true :=
  visible_of_range (by have := hex_char member; omega) (by have := hex_char member; omega)

theorem elemTimestamp_plain (member : char ∈ elemTimestamp) : visible char = true ∧ char ≠ 61 := by
  have spelled : elemTimestamp = [116] := by decide
  rw [spelled, mem_singleton] at member
  subst member
  decide

theorem elemV1_plain (member : char ∈ elemV1) : visible char = true ∧ char ≠ 61 := by
  have spelled : elemV1 = [118, 49] := by decide
  rw [spelled, mem_pair] at member
  rcases member with rfl | rfl <;> decide

theorem element_parts (named : ∀ char ∈ name, visible char = true ∧ char ≠ 61)
    (valued : ∀ char ∈ value, visible char = true) :
    cut (trimSpace (name ++ 61 :: value)) 61 = some (name, value) ∧ trimSpace name = name ∧
      trimSpace value = value := by
  refine ⟨?_, trimSpace_of_visible fun char member => (named char member).1, trimSpace_of_visible valued⟩
  rw [trimSpace_of_visible, cut_append fun member => (named _ member).2 rfl]
  intro char member
  rcases mem_append.mp member with inName | rest
  · exact (named char inName).1
  · rcases mem_cons.mp rest with rfl | inValue
    · decide
    · exact valued char inValue

def timestampElem (unix : Int) : Text :=
  elemTimestamp ++ 61 :: itoa unix

def digestElem (sum : Text) : Text :=
  elemV1 ++ 61 :: hex sum

theorem element_timestampElem (low : -2 ^ 63 ≤ unix) (high : unix < 2 ^ 63) :
    element (timestampElem unix) = some (.timestamp unix) := by
  obtain ⟨parts, name, value⟩ := element_parts
    (fun char member => elemTimestamp_plain member) fun char member => itoa_visible member
  rw [element, timestampElem, parts]
  simp [name, value, parseInt_itoa low high]

theorem element_digestElem {sum : Text} (sized : sum.length = digestSize) :
    element (digestElem sum) = some (.digest sum) := by
  obtain ⟨parts, name, value⟩ := element_parts
    (fun char member => elemV1_plain member) fun char member => hex_visible member
  have other : elemV1 ≠ elemTimestamp := by decide
  rw [element, digestElem, parts]
  simp [name, value, other, unhex_hex, Option.filter, sized]

theorem comma_free_timestampElem : (44 : UInt8) ∉ timestampElem unix := by
  rw [timestampElem, mem_append, mem_cons]
  rintro (name | sep | digits)
  · exact absurd name (by decide)
  · exact absurd sep (by decide)
  · rcases itoa_char digits with sign | digit
    · exact absurd sign (by decide)
    · exact absurd digit.1 (by decide)

theorem comma_free_digestElem (sum : Text) : (44 : UInt8) ∉ digestElem sum := by
  rw [digestElem, mem_append, mem_cons]
  rintro (name | sep | digits)
  · exact absurd name (by decide)
  · exact absurd sep (by decide)
  · exact absurd (hex_char digits).1 (by decide)

theorem sign_eq (secret : Text) (t : Time) (body : Text) :
    sign hmac secret t body =
      [44].intercalate [timestampElem (unixOf t), digestElem (hmac secret (signed (unixOf t) body))] := by
  simp [sign, timestampElem, digestElem, digest, intercalate]

theorem trimSpace_sign : trimSpace (sign hmac secret t body) = sign hmac secret t body := by
  apply trimSpace_of_visible
  intro char member
  simp only [sign, append_assoc, cons_append, mem_append, mem_cons] at member
  rcases member with name | rfl | digits | rfl | version | rfl | sum
  · exact (elemTimestamp_plain name).1
  · decide
  · exact itoa_visible digits
  · decide
  · exact (elemV1_plain version).1
  · decide
  · exact hex_visible sum

/-- An element that a header may have beside those of a signature of that time. -/
def Benign (unix : Int) (elem : Text) : Prop :=
  44 ∉ elem ∧ ∃ meaning, element elem = some meaning ∧ ∀ other, meaning = .timestamp other → other = unix

theorem unixTime_unixOf {t : Int} (low : -2 ^ 63 ≤ t / second) (high : t / second < 2 ^ 63) :
    unixTime (unixOf t) = t / second * second := by
  have wraps : int64 (int64 (t / second - unixToInternal) + unixToInternal) = t / second := by
    unfold int64 unixToInternal
    omega
  rw [unixTime, unixOf, wraps]

theorem int64_mem (value : Int) : -2 ^ 63 ≤ int64 value ∧ int64 value < 2 ^ 63 := by
  unfold int64
  omega

theorem wellFormed_combined {header sum : Text} (front back : List Text) (low : -2 ^ 63 ≤ unix)
    (high : unix < 2 ^ 63) (sized : sum.length = digestSize) (benign : ∀ elem ∈ front ++ back, Benign unix elem)
    (combined : trimSpace header = [44].intercalate (front ++ [timestampElem unix, digestElem sum] ++ back)) :
    ∃ sums, WellFormed header unix sums ∧ sum ∈ sums := by
  have stamp := element_timestampElem low high
  have tag := element_digestElem sized
  have all : ∀ elem ∈ front ++ [timestampElem unix, digestElem sum] ++ back, Benign unix elem := by
    intro elem member
    simp only [append_assoc, mem_append, mem_cons, not_mem_nil, or_false] at member
    rcases member with before | (rfl | rfl) | after
    · exact benign elem (mem_append_left _ before)
    · exact ⟨comma_free_timestampElem, _, stamp, fun other same => (Element.timestamp.inj same).symm⟩
    · exact ⟨comma_free_digestElem sum, _, tag, fun other impossible => by cases impossible⟩
    · exact benign elem (mem_append_right _ after)
  have split : (trimSpace header).splitOn 44 = front ++ [timestampElem unix, digestElem sum] ++ back := by
    rw [combined, splitOn_intercalate 44 (fun elem member => (all elem member).1) (by simp)]
  obtain ⟨elems, read⟩ : ∃ elems, ((trimSpace header).splitOn 44).mapM element = some elems := by
    rw [split]
    refine mapM_of_forall fun elem member => ?_
    obtain ⟨-, meaning, means, -⟩ := all elem member
    exact ⟨meaning, means⟩
  have shown {elem : Text} {meaning : Element} (member : elem ∈ (trimSpace header).splitOn 44)
      (means : element elem = some meaning) : meaning ∈ elems :=
    mem_of_mapM read member means
  have digests : sum ∈ elems.filterMap Element.sum :=
    mem_filterMap.mpr ⟨.digest sum, shown (by rw [split]; simp) tag, rfl⟩
  refine ⟨elems.filterMap Element.sum, ⟨elems, read, shown (by rw [split]; simp) stamp, ?_, rfl, ?_⟩, digests⟩
  · intro other member
    obtain ⟨elem, inside, means⟩ := exists_of_mapM read member
    rw [split] at inside
    obtain ⟨-, meaning, means', agrees⟩ := all elem inside
    rw [means, Option.some.injEq] at means'
    exact agrees other means'.symm
  · intro none
    rw [none] at digests
    cases digests

end

/-- The verdict is the one the header, the clock and the secrets call for exactly
where the clock arithmetic is right about a header that has a matching digest.  The
signed string gives its time and its body back.  A signature within the tolerance is
accepted, alone and among other elements. -/
theorem verify_accepts_iff (hmac : Text → Text → Text) (sized : ∀ key input, (hmac key input).length = digestSize) :
    (∀ header body secrets now tolerance, tolerance ≤ maxDuration →
      ((verify hmac header body secrets now tolerance = .ok () ↔ Accepts hmac header body secrets now tolerance) ↔
        ∀ unix sums, WellFormed header unix sums → Matches hmac unix sums body secrets →
          ClockAgrees now unix (effective tolerance))) ∧
    (∀ unix other body body', signed unix body = signed other body' → unix = other ∧ body = body') ∧
    (∀ header front back secret t body secrets now tolerance, tolerance ≤ maxDuration →
      secret ∈ secrets → secret ≠ [] → -2 ^ 63 ≤ t / second → t / second < 2 ^ 63 →
      (now - t / second * second).natAbs ≤ effective tolerance → (header = sign hmac secret t body ∨
        (∀ elem ∈ front ++ back, Benign (unixOf t) elem) ∧ trimSpace header = [44].intercalate (front ++
          [timestampElem (unixOf t), digestElem (hmac secret (signed (unixOf t) body))] ++ back)) →
      verify hmac header body secrets now tolerance = .ok ()) := by
  refine ⟨?_, fun _ _ _ _ => signed_inj, ?_⟩
  · intro header body secrets now tolerance bound
    rw [verify_ok_iff bound]
    constructor
    · intro right unix sums formed found
      rw [clockAgrees_iff formed.range (effective_le bound)]
      constructor
      · intro inside
        obtain ⟨other, others, formed', within, -⟩ := right.mp ⟨unix, sums, formed, found, inside⟩
        obtain ⟨rfl, rfl⟩ := formed.unique formed'
        exact within
      · intro within
        obtain ⟨other, others, formed', -, inside⟩ := right.mpr ⟨unix, sums, formed, within, found⟩
        obtain ⟨rfl, rfl⟩ := formed.unique formed'
        exact inside
    · intro agrees
      constructor
      · rintro ⟨unix, sums, formed, found, inside⟩
        have clock := (clockAgrees_iff formed.range (effective_le bound)).mp (agrees unix sums formed found)
        exact ⟨unix, sums, formed, clock.mp inside, found⟩
      · rintro ⟨unix, sums, formed, within, found⟩
        have clock := (clockAgrees_iff formed.range (effective_le bound)).mp (agrees unix sums formed found)
        exact ⟨unix, sums, formed, found, clock.mpr within⟩
  · intro header front back secret t body secrets now tolerance bound member nonempty low high within written
    have range := int64_mem (t / second - unixToInternal)
    obtain ⟨sums, formed, digest⟩ : ∃ sums, WellFormed header (unixOf t) sums ∧
        hmac secret (signed (unixOf t) body) ∈ sums := by
      rcases written with rfl | ⟨benign, combined⟩
      · exact wellFormed_combined [] [] range.1 range.2 (sized _ _) (by simp)
          (by rw [trimSpace_sign, sign_eq]; rfl)
      · exact wellFormed_combined front back range.1 range.2 (sized _ _) benign combined
    refine (verify_ok_iff bound).mpr ⟨unixOf t, sums, formed, ⟨secret, member, nonempty, digest⟩, .inl ?_⟩
    rw [unixTime_unixOf low high]
    exact within

/-- The beginning of the key and the text, padded. -/
def paddedHash (key input : Text) : Text :=
  (key ++ input ++ replicate 32 0).take 32

theorem length_paddedHash (key input : Text) : (paddedHash key input).length = digestSize := by
  simp only [paddedHash, length_take, length_append, length_replicate, digestSize]
  omega

theorem sign_accepted_by_default :
    verify paddedHash (sign paddedHash (text "secret") 63839923200500000000 (text "body")) (text "body")
      [text "old", text "secret"] 63839923201000000000 0 = .ok () :=
  (verify_accepts_iff paddedHash length_paddedHash).2.2 _ [] [] (text "secret") 63839923200500000000 (text "body") _ _ _
    (by decide) (by decide) (by decide) (by decide) (by decide) (by decide) (.inl rfl)

/-- A signature of the year 1, two thousand years before the clock, under a
tolerance of 292 years. -/
theorem verify_accepts_ancient :
    let header := sign paddedHash (text "secret") 0 (text "body")
    verify paddedHash header (text "body") [text "secret"] 63839923200000000000 maxDuration = .ok () ∧
      ¬Accepts paddedHash header (text "body") [text "secret"] 63839923200000000000 maxDuration := by
  refine ⟨by decide +kernel, ?_⟩
  rintro ⟨unix, sums, formed, within, -⟩
  have parsed := parse_ok_iff.mpr formed
  have actual : parse (sign paddedHash (text "secret") 0 (text "body")) =
      .ok (-62135596800, [text "secret-62135596800.body" ++ replicate 9 0]) := by decide +kernel
  rw [actual] at parsed
  obtain ⟨rfl, -⟩ := Prod.mk.inj (Except.ok.inj parsed)
  exact absurd within (by decide)

end Sendplane.Probe.Sigv1
