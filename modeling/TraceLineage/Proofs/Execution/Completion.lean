import TraceLineage.Proofs.Execution.Ending

/-!
# Polling to completion

A program is polled to completion if it is polled again and again, with nothing in between, until it
ends.  A suspended frame takes along what it needs, so that the next poll goes on inside it where
the last one has stopped: polling to completion comes to the same as running through, with the same
exit, the same state behind it and the same operations with the same results.
-/

namespace TraceLineage
namespace Prog

variable {H : Type → Type} {σ α β : Type} {h : Handler H σ}

/-! ## One poll -/

/-- What comes of a step when the rest of the program is run through. -/
def endingOf (h : Handler H σ) (d : Nat) : Step H α × World σ → Ending σ α
  | (.finished x, v) => ⟨some x, v, []⟩
  | (.pending rest, v) => rest.ending h d v

/-- Running a program through is polling it once and running through what is left. -/
theorem ending_eq_poll
    (hh : h.Prompt) (p : Prog H α) (d : Nat) (w : World σ) :
    p.ending h d w = (endingOf h d (p.poll h w)).after (p.trace h false d w) := by
  induction p generalizing d w with
  | done x => rfl
  | suspend rest _ => rfl
  | never => rfl
  | op o next ih =>
    rw [ending_op, ih, Ending.after_after]
    rfl
  | host r next ih =>
    rcases hh.eq_value_or r w with ⟨a, v, hr⟩ | ⟨e, v, hr⟩
    · rw [ending_host_value hr, ih]
      simp only [poll, drive, trace, hr]
    · rw [ending_host_panic hr]
      simp only [poll, drive, trace, hr, endingOf, Ending.after_nil]
  | frame fr body next ihbody ihnext =>
    have hscope := hh.keepsScope.across.drive body false (fr.enter w)
    have hspans := hh.keepsSpans.across.drive body false (fr.enter w)
    rw [ending_frame hh, ihbody, Ending.behind_after]
    simp only [poll, drive, trace]
    rcases hb : body.drive h false (fr.enter w) with ⟨x | rest, v⟩
    · simp only [endingOf, Ending.behind, List.nil_append, ihnext, Ending.after_after]
      rfl
    · rw [hb] at hscope hspans
      -- the rest goes on inside the frame, in the state in which the body was suspended
      simp only [endingOf, ending_frame hh, fr.enter_parked hscope hspans, fr.depth_parked,
        Ending.behind_parked, List.append_nil]
  | block body next ihbody ihnext =>
    obtain ⟨hdrive, htrace⟩ := drive_block h d w body next false
    rw [ending_block, ihnext, Ending.after_after, poll, poll, hdrive, htrace]

/-! ## Polling again and again -/

/-- A program that is polled to completion, with nothing in between: each poll finds the state that
the one before has left. -/
inductive Completes (h : Handler H σ) (d : Nat) : Prog H α → World σ → Ending σ α → Prop where
  | finished {p : Prog H α} {w v : World σ} {x : Exit α} :
    p.poll h w = (.finished x, v) → Completes h d p w ⟨some x, v, p.trace h false d w⟩
  | pending {p rest : Prog H α} {w v : World σ} {e : Ending σ α} :
    p.poll h w = (.pending rest, v) → Completes h d rest v e →
      Completes h d p w (e.after (p.trace h false d w))

variable {d : Nat} {w : World σ}

/-- Polling to completion comes to the same as running through. -/
theorem Completes.ending_eq
    (hh : h.Prompt) {p : Prog H α} {e : Ending σ α} (hp : p.Completes h d w e) :
    p.ending h d w = e := by
  induction hp with
  | @finished p w v x hend =>
    rw [ending_eq_poll hh, hend, endingOf, Ending.after, List.append_nil]
  | @pending p rest w v e hrest _ ih => rw [ending_eq_poll hh, hrest, endingOf, ih]

/-- Programs that come to the same at the first poll complete in the same way. -/
theorem Completes.of_poll
    {p q : Prog H α} {v : World σ} {e : Ending σ α} (hq : q.Completes h d v e)
    (hs : List Happening) (hpoll : p.poll h w = q.poll h v)
    (htrace : p.trace h false d w = hs ++ q.trace h false d v) :
    p.Completes h d w (e.after hs) := by
  cases hq with
  | finished hend =>
    rw [Ending.after, ← htrace]
    exact .finished (hpoll.trans hend)
  | @pending _ rest _ u e hrest hcomplete =>
    rw [Ending.after_after, ← htrace]
    exact .pending (hpoll.trans hrest) hcomplete

/-- A part completes inside a frame as it does by itself in the state inside the frame. -/
theorem Completes.frame
    (hh : h.Prompt) {fr : Frame} {body : Prog H β} {next : Exit β → Prog H α}
    {k : Exit β → World σ → Ending σ α} {e : Ending σ β}
    (hbody : body.Completes h (d + fr.depth) (fr.enter w) e)
    (hnext : ∀ x, e.exit = some x →
      (next x).Completes h d (fr.leave w e.state) (k x (fr.leave w e.state))) :
    (Prog.frame fr body next).Completes h d w (e.behind fr d w k) := by
  generalize hu : fr.enter w = u at hbody
  generalize hn : d + fr.depth = n at hbody
  induction hbody generalizing fr w with
  | @finished p u v x hend =>
    subst hu hn
    rw [poll] at hend
    refine (hnext x rfl).of_poll _ ?_ ?_
    · simp only [poll, drive, hend]
    · simp only [trace, hend, List.append_assoc]
  | @pending p rest u v e hrest _ ih =>
    subst hu hn
    rw [poll] at hrest
    have hscope := hh.keepsScope.across.drive p false (fr.enter w)
    have hspans := hh.keepsSpans.across.drive p false (fr.enter w)
    rw [hrest] at hscope hspans
    -- the induction hypothesis is about the suspended frame
    have hparked : (Prog.frame (fr.parked v) rest next).Completes h d (fr.restore w v)
        (e.behind fr d w k) := by
      rw [← Ending.behind_parked fr d w v]
      refine ih ?_ (fr.enter_parked hscope hspans) ?_
      · rw [fr.leave_parked]
        exact hnext
      · rw [fr.depth_parked]
    have htrace : (Prog.frame fr p next).trace h false d w =
        p.trace h false (d + fr.depth) (fr.enter w) := by
      simp only [trace, hrest, List.append_nil]
    rw [Ending.behind_after, ← htrace]
    refine .pending ?_ hparked
    simp only [poll, drive, hrest]

/-- A program that is brought to an end when it is run through completes when it is polled. -/
theorem completes_ending
    (hh : h.Prompt) (p : Prog H α) {x : Exit α} (hx : (p.ending h d w).exit = some x) :
    p.Completes h d w (p.ending h d w) := by
  induction p generalizing d w with
  | done y => exact .finished rfl
  | suspend rest ih => exact .pending rfl (ih hx)
  | never => cases hx
  | op o next ih =>
    rw [ending_op] at hx ⊢
    exact (ih _ hx).of_poll _ rfl rfl
  | host r next ih =>
    rcases hh.eq_value_or r w with ⟨a, v, hr⟩ | ⟨e, v, hr⟩
    · rw [ending_host_value hr] at hx ⊢
      refine (ih a hx).of_poll [] ?_ ?_
      · simp only [poll, drive, hr]
      · simp only [trace, hr, List.nil_append]
    · have hpoll : (Prog.host r next).poll h w = (.finished (.panic e), v) := by
        simp only [poll, drive, hr]
      have htrace : (Prog.host r next).trace h false d w = [] := by
        simp only [trace, hr]
      rw [ending_host_panic hr, ← htrace]
      exact .finished hpoll
  | frame fr body next ihbody ihnext =>
    rw [ending_frame hh] at hx ⊢
    cases hb : (body.ending h (d + fr.depth) (fr.enter w)).exit with
    | none =>
      rw [Ending.behind, hb] at hx
      cases hx
    | some y =>
      rw [Ending.behind, hb] at hx
      refine (ihbody hb).frame hh ?_
      intro z hz
      obtain rfl : y = z := Option.some.inj (hb.symm.trans hz)
      exact ihnext y hx
  | block body next ihbody ihnext =>
    obtain ⟨hdrive, htrace⟩ := drive_block h d w body next false
    rw [ending_block] at hx ⊢
    exact (ihnext _ hx).of_poll _ hdrive htrace

/-- Polling a program to completion comes to what running it through comes to, if that brings it to
an end. -/
theorem completes_iff
    (hh : h.Prompt) (p : Prog H α) (x : Exit α) (v : World σ) (hs : List Happening) :
    p.Completes h d w ⟨some x, v, hs⟩ ↔ p.ending h d w = ⟨some x, v, hs⟩ := by
  constructor
  · exact fun hp => hp.ending_eq hh
  · intro hp
    have hx : (p.ending h d w).exit = some x := by rw [hp]
    rw [← hp]
    exact completes_ending hh p hx

end Prog
end TraceLineage
