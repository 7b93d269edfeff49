/-
  MockSchema.Proofs.ComparisonChain — a chain of comparisons is the conjunction of its links.

  `conjunction` makes a comparison of its own of each link, with the operand before it on the left, and joins these by
  `and`, from the left. There each operand in the middle is evaluated twice and every result goes through
  its truth, yet the outcome is that of the chain, be it a value or a failure (`eval_andLinks`). A link that is
  false or fails is the last that either of them looks at (`evalLinks_append`).
-/

import MockSchema.Expr.Eval
import MockSchema.Proofs.Runs

namespace MockSchema.Expr

/-! ## A comparison for each link -/

/-- `e` and the comparisons that follow it in a chain, of which `left` is the first operand. -/
def andLinks (e left : Expr) : List (Relation × Expr) → Expr
  | [] => e
  | link :: links => andLinks (.and e (.compare left [link])) link.2 links

/-- The links of a chain that begins with `first`, as comparisons. -/
def conjunction (first : Expr) (link : Relation × Expr) (links : List (Relation × Expr)) : Expr :=
  andLinks (.compare first [link]) link.2 links

section
variable {scope : Scope} {e left right : Expr} {l : Value} {r : Relation} {links : List (Relation × Expr)}

theorem eval_single : (compare left [(r, right)]).eval scope =
    left.eval scope >>= fun x => right.eval scope >>= fun y => (x.holds r y).map .bool := by
  rw [eval]
  refine bind_congr fun x => ?_
  rw [evalLinks]
  cases right.eval scope with
  | error _ => rfl
  | ok y =>
    simp only [ok_bind]
    cases x.holds r y with
    | error _ => rfl
    | ok b => cases b <;> rfl

theorem eval_and_true (h : e.eval scope = .ok (.bool true)) : (and e right).eval scope = right.eval scope := by
  rw [eval, h]
  rfl

/-- What is false or fails decides whatever is joined to it. -/
theorem eval_and_decided (h : ∀ v, e.eval scope = .ok v → v.truthy = false) :
    (and e right).eval scope = e.eval scope := by
  rw [eval]
  cases hv : e.eval scope with
  | error _ => rfl
  | ok v =>
    simp only [ok_bind, h v hv]
    rfl

theorem eval_andLinks_decided (h : ∀ v, e.eval scope = .ok v → v.truthy = false) :
    (andLinks e left links).eval scope = e.eval scope := by
  induction links generalizing e left with
  | nil => rfl
  | cons link links ih =>
    have hand : (and e (.compare left [link])).eval scope = e.eval scope := eval_and_decided h
    rw [andLinks, ih (by rwa [hand]), hand]

/-- Where `e` has the outcome of one link on the value before it, the comparisons from there on have that of the
chain. -/
theorem eval_andLinks (he : e.eval scope = right.eval scope >>= fun y => (l.holds r y).map .bool) :
    (andLinks e right links).eval scope = (evalLinks scope l ((r, right) :: links)).map .bool := by
  rw [evalLinks]
  induction links generalizing e l r right with
  | nil =>
    rw [andLinks, he]
    cases right.eval scope with
    | error _ => rfl
    | ok y =>
      simp only [ok_bind]
      cases l.holds r y with
      | error _ => rfl
      | ok b => cases b <;> rfl
  | cons link links ih =>
    obtain ⟨r', next⟩ := link
    cases hright : right.eval scope with
    | error x =>
      have hx : e.eval scope = .error x := by rw [he, hright]; rfl
      rw [eval_andLinks_decided (by rw [hx]; nofun), hx]
      rfl
    | ok y =>
      rw [hright, ok_bind] at he
      cases hholds : l.holds r y with
      | error x =>
        have hx : e.eval scope = .error x := by rw [he, hholds]; rfl
        rw [eval_andLinks_decided (by rw [hx]; nofun), hx, ok_bind, hholds]
        rfl
      | ok b =>
        rw [hholds] at he
        cases b with
        | false =>
          have hx : e.eval scope = .ok (.bool false) := he
          rw [eval_andLinks_decided (by rw [hx]; rintro _ ⟨⟩; rfl), hx, ok_bind, hholds]
          rfl
        | true =>
          -- The operand in the middle is evaluated again, to the same value.
          have hnext : (and e (compare right [(r', next)])).eval scope =
              next.eval scope >>= fun z => (y.holds r' z).map .bool := by
            rw [eval_and_true he, eval_single, hright, ok_bind]
          rw [andLinks, ih hnext, ok_bind, hholds, ok_bind, if_pos rfl, evalLinks]

/-! ## Where a chain ends -/

/-- Links after one that is false or fails are not looked at. -/
theorem evalLinks_append (more : List (Relation × Expr)) (h : evalLinks scope l links ≠ .ok true) :
    evalLinks scope l (links ++ more) = evalLinks scope l links := by
  induction links generalizing l with
  | nil => exact absurd rfl h
  | cons link links ih =>
    obtain ⟨r, right⟩ := link
    rw [evalLinks] at h
    rw [List.cons_append, evalLinks, evalLinks]
    cases hright : right.eval scope with
    | error _ => rfl
    | ok y =>
      rw [hright, ok_bind] at h
      simp only [ok_bind]
      cases hholds : l.holds r y with
      | error _ => rfl
      | ok b =>
        rw [hholds, ok_bind] at h
        cases b with
        | false => rfl
        | true => exact ih h

theorem eval_compare_append {a : Expr} (more : List (Relation × Expr))
    (h : (compare a links).eval scope ≠ .ok (.bool true)) :
    (compare a (links ++ more)).eval scope = (compare a links).eval scope := by
  rw [eval] at h
  rw [eval, eval]
  cases ha : a.eval scope with
  | error _ => rfl
  | ok x =>
    rw [ha, ok_bind] at h
    simp only [ok_bind]
    rw [evalLinks_append more fun htrue => h (by rw [htrue]; rfl)]

end

theorem eval_conjunction (scope : Scope) (a : Expr) (link : Relation × Expr) (links : List (Relation × Expr)) :
    (conjunction a link links).eval scope = (compare a (link :: links)).eval scope := by
  obtain ⟨r, b⟩ := link
  rw [conjunction, eval]
  cases ha : a.eval scope with
  | error x =>
    have hx : (compare a [(r, b)]).eval scope = .error x := by rw [eval, ha]; rfl
    rw [eval_andLinks_decided (by rw [hx]; nofun), hx]
    rfl
  | ok x =>
    have hx : (compare a [(r, b)]).eval scope = b.eval scope >>= fun y => (x.holds r y).map .bool := by
      rw [eval_single, ha, ok_bind]
    rw [eval_andLinks hx]
    rfl

/-- A chain has the value, or the failure, of the conjunction of its links. Once a link is false or fails, neither
depends on the links after it: whatever operands they have, also such as fail or are not bound, the outcome stays. -/
theorem chain_conjunction (scope : Scope) (a : Expr) (link : Relation × Expr) (links more : List (Relation × Expr)) :
    (compare a (link :: links)).eval scope = (conjunction a link links).eval scope ∧
    ((compare a (link :: links)).eval scope ≠ .ok (.bool true) →
      (compare a (link :: links ++ more)).eval scope = (compare a (link :: links)).eval scope ∧
      (conjunction a link (links ++ more)).eval scope = (conjunction a link links).eval scope) := by
  refine ⟨(eval_conjunction scope a link links).symm, fun h => ?_⟩
  have hchain := eval_compare_append more h
  refine ⟨hchain, ?_⟩
  rw [eval_conjunction, eval_conjunction]
  exact hchain

/-- In `1 < 3 < 2 < nowhere` the second link is false, and the name after it is not looked up. -/
theorem chain_conjunction_of_false_link :
    (compare (.literal (.int 1)) [(.lt, .literal (.int 3)), (.lt, .literal (.int 2)), (.lt, .name "nowhere")]).eval
        (fun _ => none) = .ok (.bool false) ∧
    (and (and (compare (.literal (.int 1)) [(.lt, .literal (.int 3))])
        (compare (.literal (.int 3)) [(.lt, .literal (.int 2))]))
      (compare (.literal (.int 2)) [(.lt, .name "nowhere")])).eval (fun _ => none) = .ok (.bool false) := by
  have hfalse : (compare (.literal (.int 1)) [(.lt, .literal (.int 3)), (.lt, .literal (.int 2))]).eval
      (fun _ => none) = .ok (.bool false) := rfl
  have h := chain_conjunction (fun _ => none) (.literal (.int 1)) (.lt, .literal (.int 3))
    [(.lt, .literal (.int 2))] [(.lt, .name "nowhere")]
  have hmore := h.2 (by rw [hfalse]; simp)
  exact ⟨hmore.1.trans hfalse, hmore.2.trans (h.1.symm.trans hfalse)⟩

end MockSchema.Expr
