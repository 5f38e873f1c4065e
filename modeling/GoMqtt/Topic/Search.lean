import GoMqtt.Topic.TopicMap
import GoMqtt.Topic.Parse

namespace GoMqtt.Topic

open GoMqtt.Lists GoMqtt.Filter GoMqtt.Machine

variable {α : Type}

namespace Node

theorem search_nil (r : List α) (n : Node α) : n.search r [] = r ++ n.values := by
  obtain ⟨children, values⟩ := n
  rfl

theorem search_cons (r : List α) (s : List UInt8) (rest : List (List UInt8))
    (children : List (List UInt8 × Node α)) (values : List α) :
    (⟨children, values⟩ : Node α).search r (s :: rest) =
      if s = wildcardSome then searchAll (r ++ values) (s :: rest) children
      else if s = wildcardOne then searchAll (r ++ values) rest children
      else searchChild r s rest children := by
  rw [search]
  by_cases h2 : s = wildcardSome
  · subst h2
    simp [wildcardOne, wildcardSome]
  · by_cases h1 : s = wildcardOne
    · simp [h1, wildcardOne, wildcardSome]
    · simp [h1, h2]

theorem searchChild_eq (r : List α) (s : List UInt8) (segs : List (List UInt8))
    (cs : List (List UInt8 × Node α)) :
    searchChild r s segs cs = ((cs.lookup s).map fun c => c.search r segs).getD r := by
  induction cs with
  | nil => rfl
  | cons e rest ih =>
    obtain ⟨key, c⟩ := e
    by_cases hk : key = s
    · subst hk
      simp [searchChild]
    · have hk' : (s == key) = false := by simpa using Ne.symm hk
      simp [searchChild, hk, List.lookup_cons, hk', ih]

theorem mem_searchAll {v : α} {segs : List (List UInt8)} {cs : List (List UInt8 × Node α)}
    (ih : ∀ e ∈ cs, ∀ r, v ∈ e.2.search r segs ↔
      v ∈ r ∨ ∃ p, v ∈ e.2.get p ∧ Reaches wildcardOne wildcardSome segs p) (r : List α) :
    v ∈ searchAll r segs cs ↔
      v ∈ r ∨ ∃ e ∈ cs, ∃ p, v ∈ e.2.get p ∧ Reaches wildcardOne wildcardSome segs p := by
  induction cs generalizing r with
  | nil => simp [searchAll]
  | cons e rest ihl =>
    obtain ⟨s, c⟩ := e
    simp only [searchAll]
    rw [ihl (fun e h => ih e (List.mem_cons_of_mem _ h)), ih (s, c) List.mem_cons_self]
    simp only [List.mem_cons, exists_eq_or_imp, or_assoc]

theorem mem_searchChild {v : α} {s : List UInt8} {segs : List (List UInt8)}
    {cs : List (List UInt8 × Node α)} (hk : (cs.map Prod.fst).Nodup)
    (ih : ∀ e ∈ cs, ∀ r, v ∈ e.2.search r segs ↔
      v ∈ r ∨ ∃ p, v ∈ e.2.get p ∧ Reaches wildcardOne wildcardSome segs p) (r : List α) :
    v ∈ searchChild r s segs cs ↔
      v ∈ r ∨ ∃ e ∈ cs, e.1 = s ∧ ∃ p, v ∈ e.2.get p ∧ Reaches wildcardOne wildcardSome segs p := by
  rw [searchChild_eq]
  cases hc : cs.lookup s with
  | none =>
    have hno : ∀ e ∈ cs, e.1 ≠ s := by
      intro e hmem hes
      have hl := lookup_eq_some_of_mem hk hmem
      rw [hes, hc] at hl
      cases hl
    simp only [Option.map_none, Option.getD_none]
    constructor
    · exact Or.inl
    · rintro (h | ⟨e, hmem, hes, -⟩)
      · exact h
      · exact absurd hes (hno e hmem)
  | some c =>
    have hmem := mem_of_lookup_eq_some hc
    rw [Option.map_some, Option.getD_some, ih _ hmem]
    constructor
    · rintro (h | ⟨p, hv, hp⟩)
      · exact Or.inl h
      · exact Or.inr ⟨(s, c), hmem, rfl, p, hv, hp⟩
    · rintro (h | ⟨⟨s', c'⟩, hmem', rfl, p, hv, hp⟩)
      · exact Or.inl h
      · have hl := lookup_eq_some_of_mem hk hmem'
        rw [hc] at hl
        cases hl
        exact Or.inr ⟨p, hv, hp⟩

theorem wildcardOne_ne_wildcardSome : wildcardOne ≠ wildcardSome := by
  decide

theorem mem_search {n : Node α} (h : n.Sound) (r : List α) (segs : List (List UInt8)) (v : α) :
    v ∈ n.search r segs ↔
      v ∈ r ∨ ∃ p, v ∈ n.get p ∧ Reaches wildcardOne wildcardSome segs p := by
  induction n using Node.induction generalizing r segs with
  | mk children values ih =>
    obtain ⟨-, hk, he⟩ := sound_iff.mp h
    have ih' := fun e he' r segs => ih e he' (he e he').2.2 r segs
    rw [exists_get_iff hk]
    cases segs with
    | nil =>
      rw [search_nil]
      simp [reaches_nil_left]
    | cons s rest =>
      rw [search_cons]
      by_cases h2 : s = wildcardSome
      · -- `#`: this node and the whole subtree
        subst h2
        rw [if_pos rfl, mem_searchAll (fun e he' r => ih' e he' r _)]
        simp only [List.mem_append, or_assoc]
        simp [Reaches.multi]
      · by_cases h1 : s = wildcardOne
        · -- `+`: this node, and the rest of the filter in every child
          subst h1
          rw [if_neg h2, if_pos rfl, mem_searchAll (fun e he' r => ih' e he' r _)]
          simp [or_assoc, reaches_single_left wildcardOne_ne_wildcardSome]
        · -- a literal segment: the child of that name
          rw [if_neg h2, if_neg h1, mem_searchChild hk (fun e he' r => ih' e he' r _)]
          simp [reaches_literal_left h1 h2]

end Node

variable [DecidableEq α]

/-- In every tree a run of calls leaves, `Search` returns once each value stored under a topic
that the filter reaches, and so every value stored under a topic that the filter matches. -/
theorem search_returns_reached_values (ops : List (Op α)) (q : List UInt8) :
    ((run Tree.apply newTree ops).search q).Nodup ∧
      (∀ v, v ∈ (run Tree.apply newTree ops).search q ↔
        ∃ t, v ∈ (run Tree.apply newTree ops).get t ∧
          Reaches wildcardOne wildcardSome (split q) (split t)) ∧
      ∀ v t, v ∈ (run Tree.apply newTree ops).get t →
        Matches wildcardOne wildcardSome (split q) (split t) →
          v ∈ (run Tree.apply newTree ops).search q := by
  have h := represents_run ops
  have hmem : ∀ v, v ∈ (run Tree.apply newTree ops).search q ↔
      ∃ t, v ∈ (run Tree.apply newTree ops).get t ∧
        Reaches wildcardOne wildcardSome (split q) (split t) := by
    intro v
    rw [Tree.search, mem_clean, Node.mem_search h.sound]
    simp only [List.not_mem_nil, false_or]
    exact h.exists_get_iff v _
  exact ⟨nodup_clean _, hmem, fun v t hv hm => (hmem v).mpr ⟨t, hv, hm.reaches⟩⟩

/-- A value stored at `foo` only: `Search("foo/+")`, a valid filter that does not match `foo`,
returns it, since the `+` level takes the values of the node above it. -/
theorem search_returns_value_above_plus :
    let t : Tree Nat := run Tree.apply newTree [.add [102, 111, 111] 1]
    parse [102, 111, 111, 47, 43] true = .ok [102, 111, 111, 47, 43] ∧
      t.get [102, 111, 111] = [1] ∧
      ¬ Matches wildcardOne wildcardSome (split [102, 111, 111, 47, 43]) (split [102, 111, 111]) ∧
      t.search [102, 111, 111, 47, 43] = [1] := by
  decide

end GoMqtt.Topic
