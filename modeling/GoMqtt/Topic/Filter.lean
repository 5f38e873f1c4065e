import Mathlib.Data.List.Basic

namespace GoMqtt.Filter

variable {σ : Type*}

/-- `Matches single multi fs ts`: the filter segments `fs` match the topic segments `ts`. -/
inductive Matches (single multi : σ) : List σ → List σ → Prop
  | nil : Matches single multi [] []
  | multi (ts : List σ) : Matches single multi [multi] ts
  | single {fs ts : List σ} (s : σ) : Matches single multi fs ts →
      Matches single multi (single :: fs) (s :: ts)
  | literal {fs ts : List σ} (s : σ) : Matches single multi fs ts →
      Matches single multi (s :: fs) (s :: ts)

variable {single multi : σ}

theorem matches_nil_right {fs : List σ} : Matches single multi fs [] ↔ fs = [] ∨ fs = [multi] := by
  constructor
  · intro h
    cases h with
    | nil => exact Or.inl rfl
    | multi => exact Or.inr rfl
  · rintro (rfl | rfl)
    · exact .nil
    · exact .multi []

theorem matches_cons_right {fs ts : List σ} {s : σ} :
    Matches single multi fs (s :: ts) ↔
      fs = [multi] ∨ (∃ fs', fs = single :: fs' ∧ Matches single multi fs' ts) ∨
        ∃ fs', fs = s :: fs' ∧ Matches single multi fs' ts := by
  constructor
  · intro h
    cases h with
    | multi => exact Or.inl rfl
    | single _ h => exact Or.inr (Or.inl ⟨_, rfl, h⟩)
    | literal _ h => exact Or.inr (Or.inr ⟨_, rfl, h⟩)
  · rintro (rfl | ⟨fs', rfl, h⟩ | ⟨fs', rfl, h⟩)
    · exact .multi _
    · exact .single s h
    · exact .literal s h

theorem matches_nil_left {ts : List σ} : Matches single multi [] ts ↔ ts = [] := by
  constructor
  · intro h
    cases h
    rfl
  · rintro rfl
    exact .nil

/-- `Reaches single multi fs ts`: a search that walks a tree with the filter `fs` collects the
values at the topic `ts`. It differs from `Matches` in two ways: a multi level wildcard takes
the whole subtree wherever it stands, and a single level wildcard also takes the level it is
reached at, as well as every level below it that the rest of the filter reaches. -/
inductive Reaches (single multi : σ) : List σ → List σ → Prop
  | nil : Reaches single multi [] []
  | multi (fs ts : List σ) : Reaches single multi (multi :: fs) ts
  | here (fs : List σ) : Reaches single multi (single :: fs) []
  | single {fs ts : List σ} (s : σ) : Reaches single multi fs ts →
      Reaches single multi (single :: fs) (s :: ts)
  | literal {fs ts : List σ} (s : σ) : s ≠ single → s ≠ multi → Reaches single multi fs ts →
      Reaches single multi (s :: fs) (s :: ts)

theorem reaches_nil_left {ts : List σ} : Reaches single multi [] ts ↔ ts = [] := by
  constructor
  · intro h
    cases h
    rfl
  · rintro rfl
    exact .nil

theorem reaches_single_left (h : single ≠ multi) {fs ts : List σ} :
    Reaches single multi (single :: fs) ts ↔
      ts = [] ∨ ∃ s ts', ts = s :: ts' ∧ Reaches single multi fs ts' := by
  constructor
  · intro hr
    cases hr with
    | multi => exact absurd rfl h
    | here => exact Or.inl rfl
    | single s hr => exact Or.inr ⟨s, _, rfl, hr⟩
    | literal s hs => exact absurd rfl hs
  · rintro (rfl | ⟨s, ts', rfl, hr⟩)
    · exact .here fs
    · exact .single s hr

theorem reaches_literal_left {s : σ} (h1 : s ≠ single) (h2 : s ≠ multi) {fs ts : List σ} :
    Reaches single multi (s :: fs) ts ↔ ∃ ts', ts = s :: ts' ∧ Reaches single multi fs ts' := by
  constructor
  · intro hr
    cases hr with
    | multi => exact absurd rfl h2
    | here => exact absurd rfl h1
    | single _ hr => exact absurd rfl h1
    | literal _ _ _ hr => exact ⟨_, rfl, hr⟩
  · rintro ⟨ts', rfl, hr⟩
    exact .literal s h1 h2 hr

theorem Matches.reaches {fs ts : List σ} (h : Matches single multi fs ts) :
    Reaches single multi fs ts := by
  induction h with
  | nil => exact .nil
  | multi ts => exact .multi [] ts
  | single s _ ih => exact .single s ih
  | literal s _ ih =>
    -- a literal segment equal to a wildcard is taken by the wildcard's rule
    by_cases h1 : s = single
    · subst h1
      exact .single _ ih
    · by_cases h2 : s = multi
      · subst h2
        exact .multi _ _
      · exact .literal s h1 h2 ih

variable [DecidableEq σ]

def filterMatches (single multi : σ) : List σ → List σ → Bool
  | [], ts => ts.isEmpty
  | f :: fs, [] => fs.isEmpty && f = multi
  | f :: fs, t :: ts =>
    (fs.isEmpty && f = multi) || ((f = single || f = t) && filterMatches single multi fs ts)

theorem filterMatches_iff {fs ts : List σ} :
    filterMatches single multi fs ts = true ↔ Matches single multi fs ts := by
  induction fs generalizing ts with
  | nil => simp [filterMatches, matches_nil_left]
  | cons f fs ih =>
    cases ts with
    | nil =>
      rw [matches_nil_right]
      simp [filterMatches, and_comm]
    | cons t ts =>
      rw [matches_cons_right]
      simp only [filterMatches, Bool.or_eq_true, Bool.and_eq_true, List.isEmpty_iff,
        decide_eq_true_eq, ih, List.cons.injEq]
      constructor
      · rintro (⟨rfl, rfl⟩ | ⟨rfl | rfl, h⟩)
        · exact Or.inl ⟨rfl, rfl⟩
        · exact Or.inr (Or.inl ⟨fs, ⟨rfl, rfl⟩, h⟩)
        · exact Or.inr (Or.inr ⟨fs, ⟨rfl, rfl⟩, h⟩)
      · rintro (⟨rfl, rfl⟩ | ⟨fs', ⟨rfl, rfl⟩, h⟩ | ⟨fs', ⟨rfl, rfl⟩, h⟩)
        · exact Or.inl ⟨rfl, rfl⟩
        · exact Or.inr ⟨Or.inl rfl, h⟩
        · exact Or.inr ⟨Or.inr rfl, h⟩

instance (single multi : σ) : DecidableRel (Matches single multi) :=
  fun _ _ => decidable_of_iff _ filterMatches_iff

example : Matches 43 35 [97, 43, 35] [97, 98, 99, 100] := by decide

example : ¬ Matches 43 35 [97, 43] [97] := by decide

end GoMqtt.Filter
