import GoMqtt.Topic.Tree
import GoMqtt.Topic.Filter

namespace GoMqtt.Topic

open GoMqtt.Lists GoMqtt.Filter

variable {α : Type}

namespace Node

@[elab_as_elim]
theorem induction {motive : Node α → Prop}
    (mk : ∀ children values, (∀ e ∈ children, motive e.2) → motive ⟨children, values⟩) :
    ∀ n, motive n
  | ⟨children, values⟩ => mk children values fun e _ => Node.induction mk e.2
termination_by n => sizeOf n
decreasing_by
  obtain ⟨s, c⟩ := e
  have h := List.sizeOf_lt_of_mem ‹(s, c) ∈ children›
  simp_wf
  simp only [Prod.mk.sizeOf_spec] at h
  omega

def child (n : Node α) (segment : List UInt8) : Node α :=
  (n.children.lookup segment).getD newNode

theorem child_of_lookup {n : Node α} {s : List UInt8} {c : Node α}
    (h : n.children.lookup s = some c) : n.child s = c := by
  simp [child, h]

theorem child_of_lookup_none {n : Node α} {s : List UInt8} (h : n.children.lookup s = none) :
    n.child s = newNode := by
  simp [child, h]

@[simp]
theorem get_nil (n : Node α) : n.get [] = n.values := rfl

@[simp]
theorem get_newNode : ∀ p : List (List UInt8), (newNode : Node α).get p = []
  | [] => rfl
  | _ :: _ => rfl

theorem get_cons (n : Node α) (s : List UInt8) (p : List (List UInt8)) :
    n.get (s :: p) = (n.child s).get p := by
  simp only [get, child]
  cases n.children.lookup s <;> simp

theorem get_of_isEmpty {n : Node α} (h : n.isEmpty = true) (p : List (List UInt8)) :
    n.get p = [] := by
  obtain ⟨children, values⟩ := n
  simp only [isEmpty, Bool.and_eq_true, List.isEmpty_iff] at h
  obtain ⟨rfl, rfl⟩ := h
  cases p <;> rfl

theorem lookup_of_mem_get {n : Node α} {s : List UInt8} {p : List (List UInt8)} {v : α}
    (h : v ∈ n.get (s :: p)) : ∃ c, n.children.lookup s = some c ∧ v ∈ c.get p := by
  rw [get_cons, child] at h
  cases hs : n.children.lookup s with
  | none => simp [hs] at h
  | some c => exact ⟨c, rfl, by simpa [hs] using h⟩

section Grow

variable (leaf : List α → List α)

theorem child_grow_self (s : List UInt8) (p : List (List UInt8)) (n : Node α) :
    (grow leaf (s :: p) n).child s = grow leaf p (n.child s) := by
  simp [grow, child]

theorem child_grow_of_ne {s s' : List UInt8} (h : s' ≠ s) (p : List (List UInt8)) (n : Node α) :
    (grow leaf (s :: p) n).child s' = n.child s' := by
  simp [grow, child, lookup_insertKey_of_ne h]

theorem values_grow_cons (s : List UInt8) (p : List (List UInt8)) (n : Node α) :
    (grow leaf (s :: p) n).values = n.values := rfl

theorem get_grow_self (p : List (List UInt8)) (n : Node α) :
    (grow leaf p n).get p = leaf (n.get p) := by
  induction p generalizing n with
  | nil => rfl
  | cons s p ih => rw [get_cons, get_cons, child_grow_self, ih]

theorem get_grow_of_ne {p q : List (List UInt8)} (n : Node α) (h : q ≠ p) :
    (grow leaf p n).get q = n.get q := by
  induction p generalizing n q with
  | nil =>
    cases q with
    | nil => exact absurd rfl h
    | cons s q => rfl
  | cons s p ih =>
    cases q with
    | nil => rfl
    | cons s' q =>
      rw [get_cons, get_cons]
      by_cases hs : s' = s
      · subst hs
        rw [child_grow_self, ih _ (fun e => h (by rw [e]))]
      · rw [child_grow_of_ne _ hs]

theorem isEmpty_grow (hleaf : ∀ values, leaf values ≠ []) (p : List (List UInt8)) (n : Node α) :
    (grow leaf p n).isEmpty = false := by
  cases p with
  | nil =>
    simp only [grow, isEmpty, Bool.and_eq_false_iff, List.isEmpty_eq_false_iff]
    exact Or.inl (hleaf n.values)
  | cons s p =>
    have hmem : (s, grow leaf p (n.child s)) ∈ (grow leaf (s :: p) n).children := by
      apply mem_of_lookup_eq_some
      simp [grow, child]
    simp only [isEmpty, Bool.and_eq_false_iff, List.isEmpty_eq_false_iff]
    exact Or.inr (List.ne_nil_of_mem hmem)

end Grow

section Remove

variable [DecidableEq α]

theorem values_removeValue_perm (n : Node α) (v : α) :
    (n.removeValue v).values.Perm (n.values.erase v) := by
  unfold removeValue
  split
  · rename_i i h
    exact swapRemove_idxOf_perm h
  · rename_i h
    have hv : v ∉ n.values := by
      intro hv
      obtain ⟨i, hi⟩ := Option.isSome_iff_exists.mp (List.isSome_idxOf?.mpr hv)
      exact absurd hi (by simp [h])
    rw [List.erase_of_not_mem hv]

@[simp]
theorem children_removeValue (n : Node α) (v : α) : (n.removeValue v).children = n.children := by
  unfold removeValue
  split <;> rfl

/-- What a removal leaves of the values it reaches: `nil` takes all of them. -/
def removed : Option α → List α → List α
  | none, _ => []
  | some v, values => values.erase v

theorem remove_cons_of_lookup_none {o : Option α} {s : List UInt8} {p : List (List UInt8)}
    {n : Node α} (h : n.children.lookup s = none) : n.remove o (s :: p) = (n, false) := by
  simp [remove, h]

theorem remove_cons_of_lookup {o : Option α} {s : List UInt8} {p : List (List UInt8)}
    {n c : Node α} (h : n.children.lookup s = some c) :
    (n.remove o (s :: p)).1 = { n with
      children := if (c.remove o p).2 then eraseKey s n.children
        else insertKey s (c.remove o p).1 n.children } := by
  simp [remove, h]

theorem values_remove_cons (o : Option α) (s : List UInt8) (p : List (List UInt8)) (n : Node α) :
    (n.remove o (s :: p)).1.values = n.values := by
  cases h : n.children.lookup s with
  | none => rw [remove_cons_of_lookup_none h]
  | some c => rw [remove_cons_of_lookup h]

theorem isEmpty_of_remove {o : Option α} {p : List (List UInt8)} {n : Node α}
    (h : (n.remove o p).2 = true) : (n.remove o p).1.isEmpty = true := by
  cases p with
  | nil => simpa [remove] using h
  | cons s p =>
    cases hs : n.children.lookup s with
    | none => simp [remove_cons_of_lookup_none hs] at h
    | some c => simpa [remove, hs] using h

theorem remove_snd {o : Option α} {p : List (List UInt8)} {n : Node α} (hn : n.isEmpty = false) :
    (n.remove o p).2 = (n.remove o p).1.isEmpty := by
  cases p with
  | nil => rfl
  | cons s p =>
    cases hs : n.children.lookup s with
    | none => simp [remove_cons_of_lookup_none hs, hn]
    | some c => simp [remove, hs]

theorem get_child_remove_self {o : Option α} {s : List UInt8} {p q : List (List UInt8)}
    {n c : Node α} (h : n.children.lookup s = some c) :
    ((n.remove o (s :: p)).1.child s).get q = (c.remove o p).1.get q := by
  rw [remove_cons_of_lookup h]
  by_cases he : (c.remove o p).2 = true
  · simp only [he, if_true, child, lookup_eraseKey_self, Option.getD_none, get_newNode]
    exact (get_of_isEmpty (isEmpty_of_remove he) q).symm
  · simp [he, child]

theorem child_remove_of_ne {o : Option α} {s s' : List UInt8} {p : List (List UInt8)}
    {n : Node α} (hs : s' ≠ s) : (n.remove o (s :: p)).1.child s' = n.child s' := by
  cases h : n.children.lookup s with
  | none => rw [remove_cons_of_lookup_none h]
  | some c =>
    rw [remove_cons_of_lookup h]
    split <;> simp [child, lookup_eraseKey_of_ne hs, lookup_insertKey_of_ne hs]

theorem get_remove_self (o : Option α) (p : List (List UInt8)) (n : Node α) :
    ((n.remove o p).1.get p).Perm (removed o (n.get p)) := by
  induction p generalizing n with
  | nil =>
    cases o with
    | none => simp [remove, clearValues, removed]
    | some v => exact values_removeValue_perm n v
  | cons s p ih =>
    cases h : n.children.lookup s with
    | none =>
      rw [remove_cons_of_lookup_none h, get_cons, child_of_lookup_none h, get_newNode]
      cases o <;> simp [removed]
    | some c =>
      rw [get_cons, get_child_remove_self h, get_cons, child_of_lookup h]
      exact ih c

theorem get_remove_of_ne (o : Option α) {p q : List (List UInt8)} (n : Node α) (hq : q ≠ p) :
    (n.remove o p).1.get q = n.get q := by
  induction p generalizing n q with
  | nil =>
    cases q with
    | nil => exact absurd rfl hq
    | cons s q => cases o <;> simp [remove, get_cons, child, clearValues]
  | cons s p ih =>
    cases h : n.children.lookup s with
    | none => rw [remove_cons_of_lookup_none h]
    | some c =>
      cases q with
      | nil => rw [remove_cons_of_lookup h]; rfl
      | cons s' q =>
        rw [get_cons, get_cons]
        by_cases hs : s' = s
        · subst hs
          rw [get_child_remove_self h, child_of_lookup h, ih c (fun e => hq (by rw [e]))]
        · rw [child_remove_of_ne hs]

end Remove

section Clear

variable [DecidableEq α]

theorem clear_snd (v : α) (n : Node α) : (n.clear v).2 = (n.clear v).1.isEmpty := by
  obtain ⟨children, values⟩ := n
  rfl

theorem clear_children (v : α) (n : Node α) :
    (n.clear v).1.children = clearChildren v n.children := by
  obtain ⟨children, values⟩ := n
  rfl

theorem clear_values (v : α) (n : Node α) : (n.clear v).1.values = (n.removeValue v).values := by
  obtain ⟨children, values⟩ := n
  rfl

theorem mem_clearChildren {v : α} {cs : List (List UInt8 × Node α)} {e : List UInt8 × Node α} :
    e ∈ clearChildren v cs ↔ ∃ c, (e.1, c) ∈ cs ∧ (c.clear v).2 = false ∧ e.2 = (c.clear v).1 := by
  induction cs with
  | nil => simp [clearChildren]
  | cons e' rest ih =>
    obtain ⟨s, c⟩ := e'
    by_cases hc : (c.clear v).2 = true
    · simp only [clearChildren, hc, if_true, ih, List.mem_cons, Prod.mk.injEq]
      constructor
      · rintro ⟨c', h, h'⟩
        exact ⟨c', Or.inr h, h'⟩
      · rintro ⟨c', ⟨-, rfl⟩ | h, h'⟩
        · simp [hc] at h'
        · exact ⟨c', h, h'⟩
    · simp only [clearChildren, hc, Bool.false_eq_true, if_false, List.mem_cons, ih,
        Prod.mk.injEq]
      constructor
      · rintro (rfl | ⟨c', h, h'⟩)
        · exact ⟨c, Or.inl ⟨rfl, rfl⟩, by simpa using hc, rfl⟩
        · exact ⟨c', Or.inr h, h'⟩
      · rintro ⟨c', ⟨rfl, rfl⟩ | h, h', h''⟩
        · exact Or.inl (Prod.ext rfl h'')
        · exact Or.inr ⟨c', h, h', h''⟩

theorem keys_clearChildren_sublist (v : α) (cs : List (List UInt8 × Node α)) :
    ((clearChildren v cs).map Prod.fst).Sublist (cs.map Prod.fst) := by
  induction cs with
  | nil => simp [clearChildren]
  | cons e rest ih =>
    obtain ⟨s, c⟩ := e
    by_cases hc : (c.clear v).2 = true
    · simpa [clearChildren, hc] using ih.cons s
    · simpa [clearChildren, hc] using ih.cons_cons s

theorem lookup_clear_children {v : α} {n : Node α} (hk : (n.children.map Prod.fst).Nodup)
    {s : List UInt8} {c' : Node α} (h : (n.clear v).1.children.lookup s = some c') :
    ∃ c, n.children.lookup s = some c ∧ (c.clear v).2 = false ∧ c' = (c.clear v).1 := by
  rw [clear_children] at h
  obtain ⟨c, hmem, hne, he⟩ := mem_clearChildren.mp (mem_of_lookup_eq_some h)
  exact ⟨c, lookup_eq_some_of_mem hk hmem, hne, he⟩

theorem lookup_clear_children_none {v : α} {n : Node α} (hk : (n.children.map Prod.fst).Nodup)
    {s : List UInt8} (h : ∀ c, n.children.lookup s = some c → (c.clear v).2 = true) :
    (n.clear v).1.children.lookup s = none := by
  cases h' : (n.clear v).1.children.lookup s with
  | none => rfl
  | some c' =>
    obtain ⟨c, hc, hne, -⟩ := lookup_clear_children hk h'
    simp [h c hc] at hne

theorem get_child_clear (v : α) {n : Node α} (hk : (n.children.map Prod.fst).Nodup)
    (s : List UInt8) (q : List (List UInt8)) :
    ((n.clear v).1.child s).get q = ((n.child s).clear v).1.get q := by
  have hk' : (((n.clear v).1.children).map Prod.fst).Nodup := by
    rw [clear_children]
    exact (keys_clearChildren_sublist v n.children).nodup hk
  cases hc : n.children.lookup s with
  | none =>
    have hnone : (n.clear v).1.children.lookup s = none :=
      lookup_clear_children_none hk fun c hc' => by
        rw [hc] at hc'
        cases hc'
    rw [child_of_lookup_none hc, child_of_lookup_none hnone]
    simp [clear, clearChildren, removeValue, newNode]
  | some c =>
    rw [child_of_lookup hc]
    by_cases hemp : (c.clear v).2 = true
    · have hnone : (n.clear v).1.children.lookup s = none :=
        lookup_clear_children_none hk fun c₀ hc' => by
          rw [hc] at hc'
          cases hc'
          exact hemp
      rw [child_of_lookup_none hnone, get_newNode]
      exact (get_of_isEmpty (by rw [← clear_snd]; exact hemp) q).symm
    · have hmem : (s, (c.clear v).1) ∈ (n.clear v).1.children := by
        rw [clear_children]
        exact mem_clearChildren.mpr ⟨c, mem_of_lookup_eq_some hc, by simpa using hemp, rfl⟩
      rw [child_of_lookup (lookup_eq_some_of_mem hk' hmem)]

end Clear

/-- The shape of the nodes of a tree that the calls build: no node holds a value twice, the
segments of a node's children are distinct and free of the separator, and every node below
the root holds a value or a child. -/
def Sound : Node α → Prop
  | ⟨children, values⟩ => values.Nodup ∧ (children.map Prod.fst).Nodup ∧
      ∀ e ∈ children, separator ∉ e.1 ∧ e.2.isEmpty = false ∧ e.2.Sound
termination_by n => sizeOf n
decreasing_by
  obtain ⟨s, c⟩ := e
  have h := List.sizeOf_lt_of_mem ‹_ ∈ children›
  simp_wf
  simp only [Prod.mk.sizeOf_spec] at h
  omega

theorem sound_iff {n : Node α} :
    n.Sound ↔ n.values.Nodup ∧ (n.children.map Prod.fst).Nodup ∧
      ∀ e ∈ n.children, separator ∉ e.1 ∧ e.2.isEmpty = false ∧ e.2.Sound := by
  obtain ⟨children, values⟩ := n
  rw [Sound]

theorem sound_newNode : (newNode : Node α).Sound := by
  rw [sound_iff]
  simp [newNode]

theorem Sound.child {n : Node α} (h : n.Sound) (s : List UInt8) : (n.child s).Sound := by
  cases hs : n.children.lookup s with
  | none => rw [child_of_lookup_none hs]; exact sound_newNode
  | some c =>
    rw [child_of_lookup hs]
    exact ((sound_iff.mp h).2.2 _ (mem_of_lookup_eq_some hs)).2.2

theorem Sound.nodup_get {n : Node α} (h : n.Sound) (p : List (List UInt8)) : (n.get p).Nodup := by
  induction p generalizing n with
  | nil => exact (sound_iff.mp h).1
  | cons s p ih =>
    rw [get_cons]
    exact ih (h.child s)

theorem Sound.separator_not_mem {n : Node α} (h : n.Sound) {p : List (List UInt8)} {v : α}
    (hv : v ∈ n.get p) : ∀ s ∈ p, separator ∉ s := by
  induction p generalizing n with
  | nil => simp
  | cons s p ih =>
    obtain ⟨c, hc, hv'⟩ := lookup_of_mem_get hv
    have hsc := (sound_iff.mp h).2.2 _ (mem_of_lookup_eq_some hc)
    intro s' hs'
    rcases List.mem_cons.mp hs' with rfl | hs'
    · exact hsc.1
    · exact ih hsc.2.2 hv' s' hs'

theorem Sound.insertKey {n c : Node α} (h : n.Sound) {s : List UInt8} (hs : separator ∉ s)
    (hc : c.isEmpty = false) (hc' : c.Sound) :
    ({ n with children := insertKey s c n.children } : Node α).Sound := by
  obtain ⟨hv, hk, he⟩ := sound_iff.mp h
  refine sound_iff.mpr ⟨hv, keys_insertKey_nodup s c hk, ?_⟩
  intro e hmem
  rcases mem_of_mem_insertKey hmem with rfl | hmem
  · exact ⟨hs, hc, hc'⟩
  · exact he e hmem

theorem Sound.eraseKey {n : Node α} (h : n.Sound) (s : List UInt8) :
    ({ n with children := eraseKey s n.children } : Node α).Sound := by
  obtain ⟨hv, hk, he⟩ := sound_iff.mp h
  exact sound_iff.mpr ⟨hv, (keys_eraseKey_sublist s n.children).nodup hk,
    fun e hmem => he e (mem_of_mem_eraseKey hmem)⟩

theorem sound_grow {leaf : List α → List α} (hleaf : ∀ values, values.Nodup → (leaf values).Nodup)
    (hleaf' : ∀ values, leaf values ≠ []) {p : List (List UInt8)} (hp : ∀ s ∈ p, separator ∉ s)
    {n : Node α} (h : n.Sound) : (grow leaf p n).Sound := by
  induction p generalizing n with
  | nil =>
    obtain ⟨hv, hk, he⟩ := sound_iff.mp h
    exact sound_iff.mpr ⟨hleaf _ hv, hk, he⟩
  | cons s p ih =>
    have hs : separator ∉ s := hp s List.mem_cons_self
    exact h.insertKey hs (isEmpty_grow leaf hleaf' p _)
      (ih (fun s' hs' => hp s' (List.mem_cons_of_mem _ hs')) (h.child s))

section Removal

variable [DecidableEq α]

theorem sound_remove (o : Option α) {p : List (List UInt8)} {n : Node α} (h : n.Sound) :
    (n.remove o p).1.Sound := by
  induction p generalizing n with
  | nil =>
    obtain ⟨hv, hk, he⟩ := sound_iff.mp h
    cases o with
    | none => exact sound_iff.mpr ⟨List.nodup_nil, hk, he⟩
    | some v =>
      refine sound_iff.mpr ⟨?_, ?_, ?_⟩
      · exact ((values_removeValue_perm n v).nodup_iff).mpr (hv.erase v)
      · simpa [remove] using hk
      · simpa [remove] using he
  | cons s p ih =>
    cases hs : n.children.lookup s with
    | none => rw [remove_cons_of_lookup_none hs]; exact h
    | some c =>
      have hc := (sound_iff.mp h).2.2 _ (mem_of_lookup_eq_some hs)
      rw [remove_cons_of_lookup hs]
      split
      · exact h.eraseKey s
      · rename_i hemp
        refine h.insertKey hc.1 ?_ (ih hc.2.2)
        rw [← remove_snd hc.2.1]
        simpa using hemp

theorem sound_clear (v : α) (n : Node α) (h : n.Sound) : (n.clear v).1.Sound := by
  induction n using Node.induction with
  | mk children values ih =>
    obtain ⟨hv, hk, he⟩ := sound_iff.mp h
    refine sound_iff.mpr ⟨?_, ?_, ?_⟩
    · rw [clear_values]
      exact ((values_removeValue_perm _ v).nodup_iff).mpr (hv.erase v)
    · rw [clear_children]
      exact (keys_clearChildren_sublist v children).nodup hk
    · intro e hmem
      rw [clear_children] at hmem
      obtain ⟨c, hc, hemp, he2⟩ := mem_clearChildren.mp hmem
      have hsc := he _ hc
      refine ⟨hsc.1, ?_, ?_⟩
      · rw [he2, ← clear_snd]
        exact hemp
      · rw [he2]
        exact ih _ hc hsc.2.2

theorem get_clear (v : α) (q : List (List UInt8)) {n : Node α} (h : n.Sound) :
    ((n.clear v).1.get q).Perm ((n.get q).erase v) := by
  induction q generalizing n with
  | nil =>
    rw [get_nil, get_nil, clear_values]
    exact values_removeValue_perm n v
  | cons s q ih =>
    rw [get_cons, get_child_clear v (sound_iff.mp h).2.1, get_cons]
    exact ih (h.child s)

end Removal

section Reading

theorem match_newNode (r : List α) (segs : List (List UInt8)) :
    (newNode : Node α).match r segs = r := by
  cases segs <;> simp [Node.match, newNode]

theorem match_nil (r : List α) (n : Node α) :
    n.match r [] = r ++ (n.child wildcardSome).values ++ n.values := by
  simp only [Node.match, child]
  cases n.children.lookup wildcardSome <;> simp [newNode]

theorem match_cons (r : List α) {s : List UInt8} (segs : List (List UInt8)) (n : Node α)
    (hs : s ≠ wildcardOne ∧ s ≠ wildcardSome) :
    n.match r (s :: segs) = (n.child s).match
      ((n.child wildcardOne).match (r ++ (n.child wildcardSome).values) segs) segs := by
  have hnv : (newNode : Node α).values = [] := rfl
  rw [Node.match]
  cases h1 : n.children.lookup wildcardSome <;> cases h2 : n.children.lookup wildcardOne <;>
    cases h3 : n.children.lookup s <;> simp [child, h1, h2, h3, hs, match_newNode, hnv]

theorem mem_match {segs : List (List UInt8)}
    (hsegs : ∀ s ∈ segs, s ≠ wildcardOne ∧ s ≠ wildcardSome) (r : List α) (n : Node α) (v : α) :
    v ∈ n.match r segs ↔ v ∈ r ∨ ∃ p, v ∈ n.get p ∧ Matches wildcardOne wildcardSome p segs := by
  induction segs generalizing r n with
  | nil =>
    rw [match_nil]
    simp only [List.mem_append, matches_nil_right]
    constructor
    · rintro ((h | h) | h)
      · exact Or.inl h
      · exact Or.inr ⟨[wildcardSome], by rw [get_cons]; exact h, Or.inr rfl⟩
      · exact Or.inr ⟨[], h, Or.inl rfl⟩
    · rintro (h | ⟨p, hp, rfl | rfl⟩)
      · exact Or.inl (Or.inl h)
      · exact Or.inr hp
      · rw [get_cons] at hp
        exact Or.inl (Or.inr hp)
  | cons s segs ih =>
    have ih' := ih (fun s' h => hsegs s' (List.mem_cons_of_mem _ h))
    rw [match_cons _ _ _ (hsegs s List.mem_cons_self), ih', ih']
    simp only [List.mem_append, matches_cons_right]
    constructor
    · rintro (((h | h) | ⟨p, hp, hm⟩) | ⟨p, hp, hm⟩)
      · exact Or.inl h
      · exact Or.inr ⟨[wildcardSome], by rw [get_cons]; exact h, Or.inl rfl⟩
      · exact Or.inr ⟨wildcardOne :: p, by rw [get_cons]; exact hp, Or.inr (Or.inl ⟨p, rfl, hm⟩)⟩
      · exact Or.inr ⟨s :: p, by rw [get_cons]; exact hp, Or.inr (Or.inr ⟨p, rfl, hm⟩)⟩
    · rintro (h | ⟨p, hp, rfl | ⟨p', rfl, hm⟩ | ⟨p', rfl, hm⟩⟩)
      · exact Or.inl (Or.inl (Or.inl h))
      · rw [get_cons] at hp
        exact Or.inl (Or.inl (Or.inr hp))
      · rw [get_cons] at hp
        exact Or.inl (Or.inr ⟨p', hp, hm⟩)
      · rw [get_cons] at hp
        exact Or.inr ⟨p', hp, hm⟩

theorem exists_get_iff {n : Node α} (hk : (n.children.map Prod.fst).Nodup) (v : α)
    (P : List (List UInt8) → Prop) :
    (∃ p, v ∈ n.get p ∧ P p) ↔
      (v ∈ n.values ∧ P []) ∨ ∃ e ∈ n.children, ∃ p, v ∈ e.2.get p ∧ P (e.1 :: p) := by
  constructor
  · rintro ⟨p, hv, hp⟩
    cases p with
    | nil => exact Or.inl ⟨hv, hp⟩
    | cons s p =>
      obtain ⟨c, hc, hv'⟩ := lookup_of_mem_get hv
      exact Or.inr ⟨(s, c), mem_of_lookup_eq_some hc, p, hv', hp⟩
  · rintro (⟨hv, hp⟩ | ⟨⟨s, c⟩, hmem, p, hv, hp⟩)
    · exact ⟨[], hv, hp⟩
    · refine ⟨s :: p, ?_, hp⟩
      rw [get_cons, child_of_lookup (lookup_eq_some_of_mem hk hmem)]
      exact hv

theorem mem_allChildren {v : α} {cs : List (List UInt8 × Node α)}
    (ih : ∀ e ∈ cs, ∀ r, v ∈ e.2.all r ↔ v ∈ r ∨ ∃ p, v ∈ e.2.get p) (r : List α) :
    v ∈ allChildren r cs ↔ v ∈ r ∨ ∃ e ∈ cs, ∃ p, v ∈ e.2.get p := by
  induction cs generalizing r with
  | nil => simp [allChildren]
  | cons e rest ihl =>
    obtain ⟨s, c⟩ := e
    simp only [allChildren]
    rw [ihl (fun e h => ih e (List.mem_cons_of_mem _ h)), ih (s, c) List.mem_cons_self]
    simp only [List.mem_cons, exists_eq_or_imp, or_assoc]

theorem mem_all {n : Node α} (h : n.Sound) (r : List α) (v : α) :
    v ∈ n.all r ↔ v ∈ r ∨ ∃ p, v ∈ n.get p := by
  induction n using Node.induction generalizing r with
  | mk children values ih =>
    obtain ⟨-, hk, he⟩ := sound_iff.mp h
    have hget := exists_get_iff hk v fun _ => True
    simp only [and_true] at hget
    simp only [Node.all]
    rw [List.mem_append, mem_allChildren (fun e he' r => ih e he' (he e he').2.2 r), hget]
    simp only [or_comm, or_left_comm]

end Reading

end Node

section Clean

variable [DecidableEq α]

theorem contains_eq_true {l : List α} {v : α} : contains l v = true ↔ v ∈ l := by
  simp [contains]

theorem foldl_clean (values acc : List α) (h : acc.Nodup) :
    (values.foldl (fun result v => if contains result v then result else result ++ [v]) acc).Nodup ∧
      ∀ v, v ∈ values.foldl (fun result v => if contains result v then result else result ++ [v])
        acc ↔ v ∈ acc ∨ v ∈ values := by
  induction values generalizing acc with
  | nil => simp [h]
  | cons x values ih =>
    simp only [List.foldl_cons]
    by_cases hx : x ∈ acc
    · rw [if_pos (contains_eq_true.mpr hx)]
      refine ⟨(ih acc h).1, fun v => ?_⟩
      rw [(ih acc h).2 v, List.mem_cons]
      constructor
      · rintro (h | h)
        · exact Or.inl h
        · exact Or.inr (Or.inr h)
      · rintro (h | rfl | h)
        · exact Or.inl h
        · exact Or.inl hx
        · exact Or.inr h
    · have hx' : contains acc x = false := by
        rw [Bool.eq_false_iff]
        exact fun h => hx (contains_eq_true.mp h)
      rw [if_neg (by simp [hx'])]
      have hnd : (acc ++ [x]).Nodup := List.nodup_append.mpr ⟨h, by simp,
        fun a ha b hb => by rw [List.mem_singleton] at hb; subst hb; exact fun e => hx (e ▸ ha)⟩
      refine ⟨(ih _ hnd).1, fun v => ?_⟩
      rw [(ih _ hnd).2 v]
      simp [or_assoc]

theorem nodup_clean (values : List α) : (clean values).Nodup :=
  (foldl_clean values [] List.nodup_nil).1

@[simp]
theorem mem_clean {values : List α} {v : α} : v ∈ clean values ↔ v ∈ values := by
  rw [clean]
  simpa using (foldl_clean values [] List.nodup_nil).2 v

end Clean

end GoMqtt.Topic
