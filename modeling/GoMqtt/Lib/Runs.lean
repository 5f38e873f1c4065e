import Mathlib.Data.List.DropRight
import Mathlib.Data.List.Chain

namespace GoMqtt.Runs

variable {α : Type*} [DecidableEq α] (a : α)

/-- Every maximal run of `a` replaced by one `a`. -/
def collapse : List α → List α
  | [] => []
  | [x] => [x]
  | x :: y :: rest => if x = a ∧ y = a then collapse (y :: rest) else x :: collapse (y :: rest)

def NoRun (l : List α) : Prop :=
  l.IsChain fun x y => ¬ (x = a ∧ y = a)

variable {a}

theorem head?_collapse (x : α) (rest : List α) : (collapse a (x :: rest)).head? = some x := by
  induction rest generalizing x with
  | nil => rfl
  | cons y rest ih =>
    simp only [collapse]
    split_ifs with h
    · rw [ih y, h.1, h.2]
    · rfl

theorem noRun_collapse (l : List α) : NoRun a (collapse a l) := by
  induction l using collapse.induct a with
  | case1 => exact List.isChain_nil
  | case2 x => exact List.isChain_singleton x
  | case3 x y rest h ih =>
    rw [collapse, if_pos h]
    exact ih
  | case4 x y rest h ih =>
    rw [collapse, if_neg h]
    refine List.IsChain.cons ih ?_
    intro z hz
    rw [head?_collapse, Option.mem_some_iff] at hz
    rw [← hz]
    exact h

theorem collapse_of_noRun {l : List α} (h : NoRun a l) : collapse a l = l := by
  induction l using collapse.induct a with
  | case1 => rfl
  | case2 x => rfl
  | case3 x y rest hxy ih =>
    exact absurd (List.isChain_cons_cons.mp h).1 (not_not.mpr hxy)
  | case4 x y rest hxy ih =>
    rw [collapse, if_neg hxy, ih (List.isChain_cons_cons.mp h).2]

omit [DecidableEq α] in
theorem NoRun.rdropWhile {l : List α} (h : NoRun a l) (p : α → Bool) :
    NoRun a (l.rdropWhile p) :=
  List.IsChain.infix h (List.rdropWhile_prefix p l).isInfix

end GoMqtt.Runs
