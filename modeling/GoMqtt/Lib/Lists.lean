import Mathlib.Data.List.Basic

namespace GoMqtt.Lists

variable {α : Type*}

section SwapRemove

/-- Go's unordered delete of the element at `i`: the last element takes its place. -/
def swapRemove (l : List α) (i : Nat) : List α :=
  match l.getLast? with
  | some last => (l.set i last).dropLast
  | none => l

theorem swapRemove_perm {l : List α} {i : Nat} (h : i < l.length) :
    (swapRemove l i).Perm (l.eraseIdx i) := by
  obtain ⟨init, last, rfl⟩ : ∃ init last, l = init ++ [last] := by
    rcases List.eq_nil_or_concat l with rfl | ⟨init, last, rfl⟩
    · simp at h
    · exact ⟨init, last, by simp⟩
  have hlast : (init ++ [last]).getLast? = some last := by simp
  rcases Nat.lt_or_ge i init.length with hi | hi
  · simp only [swapRemove, hlast]
    rw [List.set_append_left _ _ hi, List.dropLast_concat, List.eraseIdx_append_of_lt_length hi,
      List.set_eq_take_append_cons_drop, if_pos hi, List.eraseIdx_eq_take_drop_succ]
    exact List.perm_middle.trans (List.perm_append_singleton _ _).symm
  · have hi' : i = init.length := by simp at h; omega
    subst hi'
    simp [swapRemove, hlast, List.eraseIdx_append_of_length_le]

theorem swapRemove_idxOf_perm [DecidableEq α] {l : List α} {a : α} {i : Nat}
    (h : l.idxOf? a = some i) : (swapRemove l i).Perm (l.erase a) := by
  obtain ⟨hi, -, -⟩ := List.idxOf?_eq_some_iff.mp h
  rw [List.erase_eq_eraseIdx, h]
  exact swapRemove_perm hi

end SwapRemove

section AssocList

variable {κ ν : Type*} [BEq κ] [LawfulBEq κ]

/-- Go's map assignment `m[k] = v`: the entry of `k` is replaced, or added when absent. -/
def insertKey (k : κ) (v : ν) : List (κ × ν) → List (κ × ν)
  | [] => [(k, v)]
  | (k', v') :: rest => if k' == k then (k, v) :: rest else (k', v') :: insertKey k v rest

def eraseKey (k : κ) (l : List (κ × ν)) : List (κ × ν) :=
  l.filter (fun e => e.1 != k)

@[simp]
theorem lookup_insertKey_self (k : κ) (v : ν) (l : List (κ × ν)) :
    (insertKey k v l).lookup k = some v := by
  induction l with
  | nil => simp [insertKey]
  | cons e rest ih =>
    obtain ⟨k', v'⟩ := e
    by_cases hk : k' = k
    · simp [insertKey, hk]
    · have hbeq : (k == k') = false := by simpa using Ne.symm hk
      simp [insertKey, hk, List.lookup_cons, hbeq, ih]

theorem lookup_insertKey_of_ne {k k' : κ} (h : k' ≠ k) (v : ν) (l : List (κ × ν)) :
    (insertKey k v l).lookup k' = l.lookup k' := by
  induction l with
  | nil =>
    have hbeq : (k' == k) = false := by simpa using h
    simp [insertKey, List.lookup_cons, hbeq]
  | cons e rest ih =>
    obtain ⟨k'', v'⟩ := e
    by_cases hk : k'' = k
    · subst hk
      have hbeq : (k' == k'') = false := by simpa using h
      simp [insertKey, List.lookup_cons, hbeq]
    · simp [insertKey, hk, List.lookup_cons, ih]

@[simp]
theorem lookup_eraseKey_self (k : κ) (l : List (κ × ν)) : (eraseKey k l).lookup k = none := by
  rw [List.lookup_eq_none_iff]
  intro p hp
  have hne : p.1 ≠ k := by simpa [eraseKey] using (List.mem_filter.mp hp).2
  simpa using Ne.symm hne

theorem lookup_eraseKey_of_ne {k k' : κ} (h : k' ≠ k) (l : List (κ × ν)) :
    (eraseKey k l).lookup k' = l.lookup k' := by
  induction l with
  | nil => rfl
  | cons e rest ih =>
    obtain ⟨k'', v'⟩ := e
    by_cases hk : k'' = k
    · subst hk
      have hbeq : (k' == k'') = false := by simpa using h
      simp [eraseKey, List.lookup_cons, hbeq] at ih ⊢
      exact ih
    · simp [eraseKey, hk, List.lookup_cons] at ih ⊢
      rw [ih]

theorem mem_of_mem_insertKey {k : κ} {v : ν} {l : List (κ × ν)} {e : κ × ν}
    (h : e ∈ insertKey k v l) : e = (k, v) ∨ e ∈ l := by
  induction l with
  | nil => simpa [insertKey] using h
  | cons e' rest ih =>
    obtain ⟨k', v'⟩ := e'
    by_cases hk : k' = k
    · simp only [insertKey, hk, beq_self_eq_true, if_true, List.mem_cons] at h
      rcases h with h | h
      · exact Or.inl h
      · exact Or.inr (List.mem_cons_of_mem _ h)
    · have hbeq : (k' == k) = false := by simpa using hk
      simp only [insertKey, hbeq, Bool.false_eq_true, if_false, List.mem_cons] at h
      rcases h with h | h
      · exact Or.inr (h ▸ List.mem_cons_self)
      · rcases ih h with h' | h'
        · exact Or.inl h'
        · exact Or.inr (List.mem_cons_of_mem _ h')

omit [LawfulBEq κ] in
theorem mem_of_mem_eraseKey {k : κ} {l : List (κ × ν)} {e : κ × ν} (h : e ∈ eraseKey k l) :
    e ∈ l :=
  List.mem_of_mem_filter h

theorem keys_insertKey (k : κ) (v : ν) (l : List (κ × ν)) :
    (insertKey k v l).map Prod.fst =
      if k ∈ l.map Prod.fst then l.map Prod.fst else l.map Prod.fst ++ [k] := by
  induction l with
  | nil => simp [insertKey]
  | cons e rest ih =>
    obtain ⟨k', v'⟩ := e
    by_cases hk : k' = k
    · subst hk
      simp [insertKey]
    · have hk' : k ≠ k' := Ne.symm hk
      have hbeq : (k' == k) = false := by simpa using hk
      simp only [insertKey, hbeq, Bool.false_eq_true, if_false, List.map_cons, ih, List.mem_cons,
        hk', false_or]
      split <;> simp

theorem keys_insertKey_nodup (k : κ) (v : ν) {l : List (κ × ν)} (h : (l.map Prod.fst).Nodup) :
    ((insertKey k v l).map Prod.fst).Nodup := by
  rw [keys_insertKey]
  split
  · exact h
  · rename_i hk
    refine List.nodup_append.mpr ⟨h, by simp, ?_⟩
    intro a ha b hb
    rw [List.mem_singleton] at hb
    subst hb
    exact fun e => hk (e ▸ ha)

omit [LawfulBEq κ] in
theorem keys_eraseKey_sublist (k : κ) (l : List (κ × ν)) :
    ((eraseKey k l).map Prod.fst).Sublist (l.map Prod.fst) :=
  (List.filter_sublist).map Prod.fst

theorem mem_of_lookup_eq_some {k : κ} {v : ν} {l : List (κ × ν)} (h : l.lookup k = some v) :
    (k, v) ∈ l := by
  obtain ⟨l₁, l₂, rfl, -⟩ := List.lookup_eq_some_iff.mp h
  simp

theorem lookup_eq_some_of_mem {k : κ} {v : ν} {l : List (κ × ν)} (hl : (l.map Prod.fst).Nodup)
    (h : (k, v) ∈ l) : l.lookup k = some v := by
  induction l with
  | nil => simp at h
  | cons e rest ih =>
    obtain ⟨k', v'⟩ := e
    simp only [List.map_cons, List.nodup_cons] at hl
    rcases List.mem_cons.mp h with h | h
    · simp only [Prod.mk.injEq] at h
      obtain ⟨rfl, rfl⟩ := h
      simp
    · have hk : (k == k') = false := by
        simpa using fun hk : k = k' => hl.1 (hk ▸ List.mem_map_of_mem (f := Prod.fst) h)
      simp [List.lookup_cons, hk, ih hl.2 h]

end AssocList

section Update

variable {κ ν μ : Type*} [DecidableEq κ]

theorem agree_update {m m' : κ → μ} {g : κ → ν} {F : κ → ν → μ} (hm : ∀ i, m i = F i (g i))
    {k : κ} {b : ν} (hm' : ∀ i, m' i = if i = k then F k b else m i) :
    ∀ i, m' i = F i (Function.update g k b i) := by
  intro i
  rw [hm' i]
  by_cases hi : i = k
  · subst hi
    rw [if_pos rfl, Function.update_self]
  · rw [if_neg hi, Function.update_of_ne hi, hm i]

theorem forall_update {g : κ → Option ν} {P : κ → ν → Prop} (hg : ∀ i b, g i = some b → P i b)
    {k : κ} {o : Option ν} (ho : ∀ b, o = some b → P k b) :
    ∀ i b, Function.update g k o i = some b → P i b := by
  intro i b hb
  by_cases hi : i = k
  · subst hi
    rw [Function.update_self] at hb
    exact ho b hb
  · rw [Function.update_of_ne hi] at hb
    exact hg i b hb

end Update

section Split

variable [BEq α] [LawfulBEq α]

theorem mem_splitOn {a : α} {xs s : List α} (h : s ∈ xs.splitOn a) : a ∉ s ∧ s ⊆ xs := by
  induction xs generalizing s with
  | nil => simp_all
  | cons x xs ih =>
    rw [List.splitOn_cons_eq_if_modifyHead] at h
    obtain ⟨hd, tl, hsplit⟩ := List.exists_cons_of_ne_nil (List.splitOn_ne_nil a xs)
    by_cases hx : x = a
    · simp only [hx, beq_self_eq_true, if_true, List.mem_cons] at h
      rcases h with rfl | h
      · simp
      · exact ⟨(ih h).1, List.Subset.trans (ih h).2 (List.subset_cons_self _ _)⟩
    · have hbeq : (x == a) = false := by simpa using hx
      rw [if_neg (by simp [hbeq]), hsplit] at h
      simp only [List.modifyHead_cons, List.mem_cons] at h
      have hhd := ih (s := hd) (by simp [hsplit])
      rcases h with rfl | h
      · refine ⟨?_, List.cons_subset_cons _ hhd.2⟩
        simp only [List.mem_cons, not_or]
        exact ⟨Ne.symm hx, hhd.1⟩
      · have htl := ih (s := s) (by simp [hsplit, h])
        exact ⟨htl.1, List.Subset.trans htl.2 (List.subset_cons_self _ _)⟩

end Split

section Cursor

theorem drop_add_of_drop {l pre rest : List α} {t : Nat} (h : l.drop t = pre ++ rest) :
    l.drop (t + pre.length) = rest := by
  rw [← List.drop_drop, h, List.drop_left]

theorem getD_of_drop {l rest : List α} {t : Nat} {x d : α} (h : l.drop t = x :: rest) :
    l.getD t d = x := by
  have hx : l[t]? = some x := by
    rw [← List.head?_drop, h, List.head?_cons]
  rw [List.getD_eq_getElem?_getD, hx, Option.getD_some]

theorem not_length_lt_of_drop {l rest : List α} {t m : Nat} (h : l.drop t = rest) (hm : 0 < m)
    (hr : m ≤ rest.length) : ¬ l.length < t + m := by
  have hlen := congrArg List.length h
  rw [List.length_drop] at hlen
  omega

end Cursor

end GoMqtt.Lists
