import GoMqtt.Topic.Paths
import GoMqtt.Lib.Machine
import Mathlib.Data.Finset.Basic

namespace GoMqtt.Topic

open GoMqtt.Lists GoMqtt.Filter GoMqtt.Machine

section Split

theorem split_ne_nil (topic : List UInt8) : split topic ≠ [] :=
  List.splitOn_ne_nil _ _

theorem separator_not_mem_split {topic s : List UInt8} (h : s ∈ split topic) : separator ∉ s :=
  (mem_splitOn h).1

theorem split_injective : Function.Injective split := by
  intro a b h
  have h' := congrArg ([separator].intercalate) h
  simpa [split] using h'

theorem split_intercalate {p : List (List UInt8)} (hp : p ≠ []) (hs : ∀ s ∈ p, separator ∉ s) :
    split ([separator].intercalate p) = p :=
  List.splitOn_intercalate separator hs hp

theorem split_not_wildcard {topic s : List UInt8} (h1 : (43 : UInt8) ∉ topic)
    (h2 : (35 : UInt8) ∉ topic) (h : s ∈ split topic) : s ≠ wildcardOne ∧ s ≠ wildcardSome := by
  have hsub := (mem_splitOn h).2
  constructor
  · rintro rfl
    exact h1 (hsub (by simp [wildcardOne]))
  · rintro rfl
    exact h2 (hsub (by simp [wildcardSome]))

end Split

variable {α : Type} [DecidableEq α]

structure TopicMap (α : Type) where
  values : List UInt8 → Finset α

namespace TopicMap

def empty : TopicMap α := ⟨fun _ => ∅⟩

def apply (m : TopicMap α) : Op α → TopicMap α
  | .add topic v => ⟨Function.update m.values topic (insert v (m.values topic))⟩
  | .set topic v => ⟨Function.update m.values topic {v}⟩
  | .remove topic v => ⟨Function.update m.values topic ((m.values topic).erase v)⟩
  | .empty topic => ⟨Function.update m.values topic ∅⟩
  | .clear v => ⟨fun topic => (m.values topic).erase v⟩
  | .reset => empty

end TopicMap

/-- The tree `t` stores the map `m`: it has the shape of a tree the calls build, its root holds
no value (no topic leads there), and `Get` returns at every topic the set of `m`. -/
structure Represents (t : Tree α) (m : TopicMap α) : Prop where
  sound : t.root.Sound
  root_values : t.root.values = []
  mem_get : ∀ topic v, v ∈ t.get topic ↔ v ∈ m.values topic

namespace Represents

variable {t : Tree α} {m : TopicMap α}

omit [DecidableEq α] in
theorem nodup_get (h : Represents t m) (topic : List UInt8) : (t.get topic).Nodup :=
  h.sound.nodup_get _

omit [DecidableEq α] in
theorem exists_get_iff (h : Represents t m) (v : α) (P : List (List UInt8) → Prop) :
    (∃ p, v ∈ t.root.get p ∧ P p) ↔ ∃ topic, v ∈ t.get topic ∧ P (split topic) := by
  constructor
  · rintro ⟨p, hv, hp⟩
    have hne : p ≠ [] := by
      rintro rfl
      simp [h.root_values] at hv
    refine ⟨[separator].intercalate p, ?_⟩
    rw [Tree.get, split_intercalate hne (h.sound.separator_not_mem hv)]
    exact ⟨hv, hp⟩
  · rintro ⟨topic, hv, hp⟩
    exact ⟨split topic, hv, hp⟩

omit [DecidableEq α] in
theorem update {t' : Tree α} (h : Represents t m) (topic : List UInt8) (g : Finset α → Finset α)
    (hsound : t'.root.Sound) (hroot : t'.root.values = [])
    (hself : ∀ v, v ∈ t'.get topic ↔ v ∈ g (m.values topic))
    (hother : ∀ topic', topic' ≠ topic → t'.get topic' = t.get topic') :
    Represents t' ⟨Function.update m.values topic (g (m.values topic))⟩ := by
  refine ⟨hsound, hroot, fun topic' v => ?_⟩
  dsimp only
  by_cases ht : topic' = topic
  · subst ht
    rw [Function.update_self]
    exact hself v
  · rw [Function.update_of_ne ht, hother topic' ht]
    exact h.mem_get topic' v

theorem add (h : Represents t m) (topic : List UInt8) (v : α) :
    Represents (t.add topic v) (m.apply (.add topic v)) := by
  obtain ⟨s, p, hsp⟩ := List.exists_cons_of_ne_nil (split_ne_nil topic)
  refine h.update topic (insert v) ?_ ?_ ?_ ?_
  · refine Node.sound_grow ?_ ?_ (fun s hs => separator_not_mem_split hs) h.sound
    · intro values hv
      split
      · exact hv
      · exact hv.append (List.nodup_singleton v) (by simpa using ‹v ∉ values›)
    · intro values
      split
      · exact List.ne_nil_of_mem ‹v ∈ values›
      · simp
  · simp only [Tree.add, Node.add, hsp, Node.values_grow_cons, h.root_values]
  · intro v'
    have hget : (t.add topic v).get topic =
        if v ∈ t.get topic then t.get topic else t.get topic ++ [v] :=
      Node.get_grow_self _ _ _
    rw [hget, Finset.mem_insert, ← h.mem_get]
    split
    · rename_i hv
      constructor
      · exact Or.inr
      · rintro (rfl | h')
        · exact hv
        · exact h'
    · simp [or_comm]
  · intro topic' ht
    exact Node.get_grow_of_ne _ _ (fun e => ht (split_injective e))

theorem set (h : Represents t m) (topic : List UInt8) (v : α) :
    Represents (t.set topic v) (m.apply (.set topic v)) := by
  obtain ⟨s, p, hsp⟩ := List.exists_cons_of_ne_nil (split_ne_nil topic)
  refine h.update topic (fun _ => {v}) ?_ ?_ ?_ ?_
  · exact Node.sound_grow (fun _ _ => List.nodup_singleton v) (fun _ => by simp)
      (fun s hs => separator_not_mem_split hs) h.sound
  · simp only [Tree.set, Node.set, hsp, Node.values_grow_cons, h.root_values]
  · intro v'
    rw [Tree.get, Tree.set, Node.set, Node.get_grow_self]
    simp
  · intro topic' ht
    exact Node.get_grow_of_ne _ _ (fun e => ht (split_injective e))

theorem removal (h : Represents t m) (topic : List UInt8) (o : Option α) :
    Represents ⟨(t.root.remove o (split topic)).1⟩
      ⟨Function.update m.values topic
        (match o with
          | none => ∅
          | some v => (m.values topic).erase v)⟩ := by
  obtain ⟨s, p, hsp⟩ := List.exists_cons_of_ne_nil (split_ne_nil topic)
  refine h.update topic (fun set => match o with | none => ∅ | some v => set.erase v) ?_ ?_ ?_ ?_
  · exact Node.sound_remove o h.sound
  · rw [hsp, Node.values_remove_cons, h.root_values]
  · intro v'
    have hnd : (t.root.get (split topic)).Nodup := h.nodup_get topic
    rw [Tree.get, (Node.get_remove_self o (split topic) t.root).mem_iff]
    cases o with
    | none => simp [Node.removed]
    | some v =>
      rw [Node.removed, hnd.mem_erase_iff]
      show _ ↔ v' ∈ (m.values topic).erase v
      rw [Finset.mem_erase, ← h.mem_get]
      rfl
  · intro topic' ht
    exact Node.get_remove_of_ne o _ (fun e => ht (split_injective e))

theorem clear (h : Represents t m) (v : α) :
    Represents (t.clear v) (m.apply (.clear v)) := by
  refine ⟨Node.sound_clear v _ h.sound, ?_, fun topic v' => ?_⟩
  · have hperm := (Node.get_clear v [] h.sound)
    rw [Node.get_nil, Node.get_nil, h.root_values, List.erase_nil, List.perm_nil] at hperm
    exact hperm
  · have hnd : (t.root.get (split topic)).Nodup := h.nodup_get topic
    rw [Tree.clear, Tree.get, (Node.get_clear v _ h.sound).mem_iff, hnd.mem_erase_iff]
    show _ ↔ v' ∈ (m.values topic).erase v
    rw [Finset.mem_erase, ← h.mem_get]
    rfl

omit [DecidableEq α] in
theorem newTree : Represents (newTree : Tree α) TopicMap.empty := by
  refine ⟨Node.sound_newNode, rfl, fun topic v => ?_⟩
  simp [Tree.get, GoMqtt.Topic.newTree, TopicMap.empty]

theorem apply (h : Represents t m) (op : Op α) : Represents (t.apply op) (m.apply op) := by
  cases op with
  | add topic v => exact h.add topic v
  | set topic v => exact h.set topic v
  | remove topic v => exact h.removal topic (some v)
  | empty topic => exact h.removal topic none
  | clear v => exact h.clear v
  | reset => exact Represents.newTree

theorem mem_all (h : Represents t m) (v : α) : v ∈ t.all ↔ ∃ topic, v ∈ m.values topic := by
  rw [Tree.all, mem_clean, Node.mem_all h.sound]
  have he := h.exists_get_iff v (fun _ => True)
  simp only [and_true] at he
  simp only [List.not_mem_nil, false_or, he, h.mem_get]

end Represents

theorem represents_run (ops : List (Op α)) :
    Represents (run Tree.apply newTree ops) (run TopicMap.apply TopicMap.empty ops) :=
  run_simulation (fun _ _ op h => h.apply op) ops Represents.newTree

/-- Every run of calls leaves a tree that represents the map of the same calls, in which `Get`
returns each value of a topic once and `All` each value stored under some topic once. -/
theorem tree_refines_topic_map (ops : List (Op α)) :
    Represents (run Tree.apply newTree ops) (run TopicMap.apply TopicMap.empty ops) ∧
      (∀ topic, ((run Tree.apply newTree ops).get topic).Nodup) ∧
      ((run Tree.apply newTree ops).all).Nodup ∧
      ∀ v, v ∈ (run Tree.apply newTree ops).all ↔
        ∃ topic, v ∈ (run TopicMap.apply TopicMap.empty ops).values topic := by
  have h := represents_run ops
  exact ⟨h, h.nodup_get, nodup_clean _, h.mem_all⟩

/-- In every tree a run of calls leaves, `Match` of a topic without wildcards returns once each
value stored under a filter that matches the topic. -/
theorem match_returns_matching_values (ops : List (Op α)) (topic : List UInt8)
    (h1 : (43 : UInt8) ∉ topic) (h2 : (35 : UInt8) ∉ topic) :
    ((run Tree.apply newTree ops).match topic).Nodup ∧
      ∀ v, v ∈ (run Tree.apply newTree ops).match topic ↔
        ∃ f, v ∈ (run Tree.apply newTree ops).get f ∧
          Matches wildcardOne wildcardSome (split f) (split topic) := by
  have h := represents_run ops
  refine ⟨nodup_clean _, fun v => ?_⟩
  rw [Tree.match, mem_clean, Node.mem_match (fun s hs => split_not_wildcard h1 h2 hs)]
  simp only [List.not_mem_nil, false_or]
  exact h.exists_get_iff v _

theorem match_returns_matching_values_a_b :
    let ops : List (Op Nat) := [.add [97, 47, 35] 1, .add [43, 47, 98] 2, .add [97] 3]
    (43 : UInt8) ∉ [97, 47, 98] ∧ (35 : UInt8) ∉ [97, 47, 98] ∧
      ((run Tree.apply newTree ops).match [97, 47, 98]).Nodup ∧
      ∀ v, v ∈ (run Tree.apply newTree ops).match [97, 47, 98] ↔
        ∃ f, v ∈ (run Tree.apply newTree ops).get f ∧
          Matches wildcardOne wildcardSome (split f) (split [97, 47, 98]) :=
  ⟨by decide, by decide, match_returns_matching_values _ _ (by decide) (by decide)⟩

example : ((newTree : Tree Nat).add [97, 47, 35] 1 |>.add [43, 47, 98] 2 |>.add [97] 3).match
    [97, 47, 98] = [2, 1] := by
  decide

end GoMqtt.Topic
