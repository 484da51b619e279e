import DocExcerpt.Proofs.Fallible
import DocExcerpt.Template.Render
/-!
# What the nodes of a template say

Nodes say what each of them says, one after the other (`renderNodes_eq_ok`).  A loop over an array says its body once
for each item (`renderNode_loop_eq_ok`), and a condition says one of its two parts (`renderNode_branch`).
-/
namespace DocExcerpt
namespace Template

variable {scope : Scope}

theorem renderNodes_eq_ok {nodes : List Node} {texts : List Text}
    (h : List.Forall₂ (fun n t => renderNode scope n = .ok t) nodes texts) :
    renderNodes scope nodes = .ok texts.flatten := by
  induction h with
  | nil => rw [renderNodes, List.flatten_nil]
  | cons hn _ ih =>
    rw [renderNodes, hn, ih, List.flatten_cons]
    rfl

theorem forall₂_zipIdx {α β : Type} {R : α × Nat → β → Prop} {l : List α} {r : List β}
    (h : List.Forall₂ (fun a b => ∀ n, R (a, n) b) l r) (n : Nat) : List.Forall₂ R (l.zipIdx n) r := by
  induction h generalizing n with
  | nil => exact .nil
  | cons hab _ ih => exact .cons (hab n) (ih (n + 1))

/-- **A loop over an array says its body once for each item, in order**, when what the body says of an item does not
depend on where the item stands. -/
theorem renderNode_loop_eq_ok {x : Text} {whole : Expr} {body : List Node} {values : List Json} {texts : List Text}
    (hwhole : whole.value scope = .ok (some (.array values)))
    (hbody : List.Forall₂ (fun v t => ∀ loop, renderNodes ((x, v) :: ("loop".toList, loop) :: scope) body = .ok t)
      values texts) :
    renderNode scope (.loop x whole body []) = .ok texts.flatten := by
  rw [renderNode, bind_eq_ok_iff]
  refine ⟨_, hwhole, bind_eq_ok_iff.2 ⟨values, by rw [items], ?_⟩⟩
  split
  · next h =>
    obtain rfl := List.isEmpty_iff.1 h
    cases hbody
    rw [renderNodes, List.flatten_nil]
  · have heach := hbody.imp (fun _ _ h index => h (loopValue values.length index))
    exact bind_eq_ok_iff.2 ⟨texts, mapM_eq_ok_iff.2 (forall₂_zipIdx heach 0), rfl⟩

theorem renderNode_branch {condition : Expr} {value? : Option Json} (h : condition.value scope = .ok value?)
    (body otherwise : List Node) :
    renderNode scope (.branch condition body otherwise) =
      if isTrue value? then renderNodes scope body else renderNodes scope otherwise := by
  rw [renderNode, h]
  rfl

end Template
end DocExcerpt
