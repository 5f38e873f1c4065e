import GoMqtt.Topic.Tree
import GoMqtt.Lib.Runs

namespace GoMqtt.Topic

open GoMqtt.Runs

inductive ParseError
  | zeroLength
  | wildcards
  deriving DecidableEq, Repr

/-- The loop over the segments of `Parse`: the `i`-th segment of `n`, and the three checks of
each segment in the order of the source. -/
def checkSegments (allowWildcards : Bool) (n : Nat) : Nat → List (List UInt8) → Except ParseError Unit
  | _, [] => .ok ()
  | i, s :: rest =>
    if (s.contains 43 || s.contains 35) && s.length > 1 then .error .wildcards
    else if !allowWildcards && (s == [35] || s == [43]) then .error .wildcards
    else if s == [35] && i != n - 1 then .error .wildcards
    else checkSegments allowWildcards n (i + 1) rest

def parse (topic : List UInt8) (allowWildcards : Bool) : Except ParseError (List UInt8) :=
  if topic = [] then .error .zeroLength
  else
    -- `multiSlashRegex.ReplaceAllString(topic, "/")`, then `strings.TrimRight(topic, "/")`
    let topic := (collapse 47 topic).rdropWhile (· == 47)
    if topic = [] then .error .zeroLength
    else
      let segments := split topic
      match checkSegments allowWildcards segments.length 0 segments with
      | .ok () => .ok topic
      | .error e => .error e

/-- The normal form of a topic: runs of `/` collapsed and trailing `/` removed. -/
def normalize (topic : List UInt8) : List UInt8 :=
  (collapse 47 topic).rdropWhile (· == 47)

/-- A segment of a valid filter: no wildcard in it, or a `+` alone when wildcards are allowed,
or a `#` alone when they are allowed and it is the last segment. -/
def ValidSegment (allowWildcards last : Bool) (s : List UInt8) : Prop :=
  ((43 : UInt8) ∉ s ∧ (35 : UInt8) ∉ s) ∨ (s = [43] ∧ allowWildcards = true) ∨
    (s = [35] ∧ allowWildcards = true ∧ last = true)

instance (allowWildcards last : Bool) (s : List UInt8) :
    Decidable (ValidSegment allowWildcards last s) :=
  inferInstanceAs (Decidable (_ ∨ _ ∨ _))

section Normalize

theorem normalize_nil : normalize [] = [] := rfl

theorem noRun_normalize (topic : List UInt8) : NoRun 47 (normalize topic) :=
  (noRun_collapse topic).rdropWhile _

theorem normalize_normalize (topic : List UInt8) : normalize (normalize topic) = normalize topic := by
  rw [normalize, collapse_of_noRun (noRun_normalize topic), normalize, List.rdropWhile_idempotent]

end Normalize

section Segments

theorem segment_checks_iff (w last : Bool) (s : List UInt8) :
    ¬ (((s.contains 43 || s.contains 35) && s.length > 1) = true) ∧
      ¬ ((!w && (s == [35] || s == [43])) = true) ∧ ¬ ((s == [35] && !last) = true) ↔
      ValidSegment w last s := by
  match s with
  | [] => simp [ValidSegment]
  | [x] =>
    by_cases h43 : x = 43
    · subst h43
      cases w <;> cases last <;> decide
    · by_cases h35 : x = 35
      · subst h35
        cases w <;> cases last <;> decide
      · simp [ValidSegment, h43, h35, Ne.symm h43, Ne.symm h35]
  | x :: y :: rest =>
    simp only [ValidSegment, List.length_cons, List.contains_eq_mem, List.mem_cons]
    by_cases h43 : (43 : UInt8) ∈ x :: y :: rest <;> by_cases h35 : (35 : UInt8) ∈ x :: y :: rest <;>
      simp_all

theorem checkSegments_ok_iff (w : Bool) (n : Nat) (segments : List (List UInt8)) (i : Nat) :
    checkSegments w n i segments = .ok () ↔
      ∀ j (hj : j < segments.length), ValidSegment w (i + j == n - 1) segments[j] := by
  induction segments generalizing i with
  | nil => simp [checkSegments]
  | cons s rest ih =>
    have hsplit : (∀ j (hj : j < (s :: rest).length), ValidSegment w (i + j == n - 1) (s :: rest)[j]) ↔
        ValidSegment w (i == n - 1) s ∧
          ∀ j (hj : j < rest.length), ValidSegment w (i + 1 + j == n - 1) rest[j] := by
      constructor
      · intro h
        refine ⟨?_, fun j hj => ?_⟩
        · have := h 0 (by simp)
          rwa [Nat.add_zero, List.getElem_cons_zero] at this
        have := h (j + 1) (by simpa using hj)
        rwa [List.getElem_cons_succ, show i + (j + 1) = i + 1 + j by omega] at this
      · rintro ⟨h0, h⟩ j hj
        cases j with
        | zero => simpa using h0
        | succ j =>
          rw [List.getElem_cons_succ, show i + (j + 1) = i + 1 + j by omega]
          exact h j (by simpa using hj)
    rw [hsplit, ← ih, ← segment_checks_iff, checkSegments,
      show (i != n - 1) = !(i == n - 1) from rfl]
    split_ifs <;> simp_all

theorem checkSegments_zero_ok_iff (w : Bool) (segments : List (List UInt8)) :
    checkSegments w segments.length 0 segments = .ok () ↔
      ∀ j (hj : j < segments.length), ValidSegment w (j + 1 == segments.length) segments[j] := by
  rw [checkSegments_ok_iff]
  refine forall_congr' fun j => forall_congr' fun hj => ?_
  have hlast : (0 + j == segments.length - 1) = (j + 1 == segments.length) := by
    rw [Bool.eq_iff_iff, beq_iff_eq, beq_iff_eq]
    omega
  rw [hlast]

end Segments

theorem parse_eq_ok_iff {t r : List UInt8} {w : Bool} :
    parse t w = .ok r ↔ r = normalize t ∧ normalize t ≠ [] ∧
      ∀ i (hi : i < (split (normalize t)).length),
        ValidSegment w (i + 1 == (split (normalize t)).length) (split (normalize t))[i] := by
  by_cases ht : t = []
  · subst ht
    simp [parse, normalize_nil]
  · rw [parse, if_neg ht]
    change (if normalize t = [] then _ else _) = _ ↔ _
    by_cases hn : normalize t = []
    · simp [hn]
    · rw [if_neg hn, ← checkSegments_zero_ok_iff]
      change (match checkSegments w (split (normalize t)).length 0 (split (normalize t)) with
        | .ok () => Except.ok (normalize t)
        | .error e => .error e) = _ ↔ _
      split
      · next hc => simp [hc, hn, eq_comm]
      · next e hc => simp [hc]

theorem parse_accepts_valid_filters (t : List UInt8) (w : Bool) :
    ((∃ r, parse t w = .ok r) ↔ normalize t ≠ [] ∧
      ∀ i (hi : i < (split (normalize t)).length),
        ValidSegment w (i + 1 == (split (normalize t)).length) (split (normalize t))[i]) ∧
    ∀ r, parse t w = .ok r → r = normalize t ∧ parse r w = .ok r := by
  constructor
  · constructor
    · rintro ⟨r, hr⟩
      exact (parse_eq_ok_iff.mp hr).2
    · intro h
      exact ⟨_, parse_eq_ok_iff.mpr ⟨rfl, h⟩⟩
  · intro r hr
    obtain ⟨rfl, hvalid⟩ := parse_eq_ok_iff.mp hr
    refine ⟨rfl, parse_eq_ok_iff.mpr ?_⟩
    rw [normalize_normalize]
    exact ⟨rfl, hvalid⟩

/-- A leading run of `/` leaves an empty first segment; `+` needs wildcards to be allowed. -/
example : parse [47, 47, 97, 47, 43, 47] true = .ok [47, 97, 47, 43] ∧
    parse [47, 47, 97, 47, 43, 47] false = .error .wildcards := by
  decide

end GoMqtt.Topic
