import TraceLineage.Execution.Drive

/-!
# Frames

What distinguishes frames from each other: whether the context around a frame can be reached inside
it, and whether the frame acts on a context itself.  Guards are the only frames of the second kind;
every other one just puts back what it had replaced, whether its part has ended or is dropped.
-/

namespace TraceLineage
namespace Frame

variable {σ : Type}

/-- Whether the context around a frame is out of reach inside it. -/
def hidesContext : Frame → Bool
  | scope _ => true
  | guard _ => false
  | span _ => false
  | detached => true
  | extent => false

/-- Whether a frame acts on the context around it. -/
def isGuard : Frame → Bool
  | guard _ => true
  | _ => false

theorem eq_guard_or
    (fr : Frame) :
    (∃ begun, fr = guard begun) ∨ fr.isGuard = false := by
  cases fr with
  | guard begun => exact Or.inl ⟨begun, rfl⟩
  | _ => exact Or.inr rfl

theorem leave_of_not_guard
    {fr : Frame} (hfr : fr.isGuard = false) (w v : World σ) :
    fr.leave w v = fr.restore w v := by
  cases fr with
  | guard begun => exact absurd hfr.symm Bool.false_ne_true
  | _ => rfl

theorem abandon_of_not_guard
    {fr : Frame} (hfr : fr.isGuard = false) (w v : World σ) :
    fr.abandon w v = fr.restore w v := by
  cases fr with
  | guard begun => exact absurd hfr.symm Bool.false_ne_true
  | _ => rfl

theorem isGuard_parked
    (fr : Frame) (v : World σ) :
    (fr.parked v).isGuard = fr.isGuard := by
  cases fr <;> rfl

theorem hidesContext_parked
    (fr : Frame) (v : World σ) :
    (fr.parked v).hidesContext = fr.hidesContext := by
  cases fr <;> rfl

/-- A frame that lets the context through presents it inside unchanged. -/
theorem ambient_enter
    {fr : Frame} (hfr : fr.hidesContext = false) (w : World σ) :
    (fr.enter w).ambient = w.ambient := by
  cases fr with
  | scope ctx => exact absurd hfr.symm Bool.false_ne_true
  | detached => exact absurd hfr.symm Bool.false_ne_true
  | _ => rfl

/-- A frame puts back the context around it, or lets through the one inside it. -/
theorem ambient_restore
    (fr : Frame) (w v : World σ) :
    (fr.restore w v).ambient = if fr.hidesContext = true then w.ambient else v.ambient := by
  cases fr <;> rfl

end Frame
end TraceLineage
