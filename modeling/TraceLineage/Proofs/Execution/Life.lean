import TraceLineage.Proofs.Execution.Trace

/-!
# Lives of programs

A life is what becomes of a program that is polled in one state after the other.  The states are
arbitrary: between two polls anything may happen, and every poll may find another context in scope,
other spans, and facilities that others have used in the meantime.

A program relays another one if it does the same and only ends with another value.  That this holds
of every poll is shown once, here, for the two ways in which adapters make such programs: by a
continuation that does nothing but return, and by a frame around the whole.
-/

namespace TraceLineage

/-- An exit with another value. -/
def Exit.map {α β : Type} (g : α → β) : Exit α → Exit β
  | value a => value (g a)
  | panic p => panic p

/-- The exit with which a program has ended. -/
def Step.exit? {H : Type → Type} {α : Type} : Step H α → Option (Exit α)
  | finished x => some x
  | pending _ => none

/-- What becomes of a program: its exit or the rest of it, the states behind the polls, and what it
has performed. -/
structure Life (H : Type → Type) (σ α : Type) : Type 1 where
  step : Step H α
  states : List (World σ)
  trace : List Happening

namespace Prog

variable {H : Type → Type} {σ α β γ : Type}

/-- What becomes of a program that is polled in some states, one after the other, until it ends. -/
def life (h : Handler H σ) (p : Prog H α) : List (World σ) → Life H σ α
  | [] => ⟨.pending p, [], []⟩
  | w :: ws =>
    match p.poll h w with
    | (.finished x, v) => ⟨.finished x, [v], p.trace h false 0 w⟩
    | (.pending rest, v) =>
      let l := rest.life h ws
      ⟨l.step, v :: l.states, p.trace h false 0 w ++ l.trace⟩

theorem life_of_finished
    {h : Handler H σ} {p : Prog H α} {w v : World σ} {x : Exit α} (ws : List (World σ))
    (hp : p.poll h w = (.finished x, v)) :
    p.life h (w :: ws) = ⟨.finished x, [v], p.trace h false 0 w⟩ := by
  simp only [life, hp]

theorem life_of_pending
    {h : Handler H σ} {p rest : Prog H α} {w v : World σ} (ws : List (World σ))
    (hp : p.poll h w = (.pending rest, v)) :
    p.life h (w :: ws) =
      ⟨(rest.life h ws).step, v :: (rest.life h ws).states,
        p.trace h false 0 w ++ (rest.life h ws).trace⟩ := by
  simp only [life, hp]

/-- Programs that come to the same at the first poll have the same life from then on. -/
theorem life_congr
    {h : Handler H σ} {p q : Prog H α} {w v : World σ} (ws : List (World σ)) (hs : List Happening)
    (hpoll : p.poll h w = q.poll h v)
    (htrace : p.trace h false 0 w = hs ++ q.trace h false 0 v) :
    p.life h (w :: ws) =
      ⟨(q.life h (v :: ws)).step, (q.life h (v :: ws)).states,
        hs ++ (q.life h (v :: ws)).trace⟩ := by
  rcases hq : q.poll h v with ⟨x | rest, u⟩
  · rw [life_of_finished ws hq, life_of_finished ws (hpoll.trans hq), htrace]
  · rw [life_of_pending ws hq, life_of_pending ws (hpoll.trans hq), htrace]
    simp only [List.append_assoc]

/-- `q` does what `p` does and ends with the `g` of its value: the value is passed through `g` at
the end, inside the same frame around both, or in front of a continuation that just returns. -/
inductive Relays : {α β : Type} → (α → β) → Prog H α → Prog H β → Prop
  | map {α β : Type} (g : α → β) (p : Prog H α) :
    Relays g p (p.bind fun a => done (.value (g a)))
  | inFrame {α β : Type} {g : α → β} {p : Prog H α} {q : Prog H β} (fr : Frame) :
    Relays g p q → Relays g (p.inFrame fr) (q.inFrame fr)
  | bind {α β γ : Type} {g : α → β} {p : Prog H α} {q : Prog H β} {e : α → γ}
    {k : β → Prog H γ} :
    Relays g p q → (∀ a, k (g a) = done (.value (e a))) → Relays e p (q.bind k)

end Prog

/-- A step that has ended with the `g` of the other value, or that goes on relaying the other. -/
inductive Step.Relays {H : Type → Type} {α β : Type} (g : α → β) : Step H α → Step H β → Prop
  | finished (x : Exit α) : Relays g (.finished x) (.finished (x.map g))
  | pending {p : Prog H α} {q : Prog H β} (hpq : Prog.Relays g p q) :
    Relays g (.pending p) (.pending q)

theorem Step.Relays.exit?_eq
    {H : Type → Type} {α β : Type} {g : α → β} {x : Step H α} {y : Step H β}
    (hxy : Step.Relays g x y) :
    y.exit? = x.exit?.map (Exit.map g) := by
  cases hxy <;> rfl

namespace Prog

variable {H : Type → Type} {σ α β γ : Type}

theorem Relays.drive
    {g : α → β} {p : Prog H α} {q : Prog H β} (hpq : Relays g p q) (h : Handler H σ)
    (through : Bool) (d : Nat) (w : World σ) :
    Step.Relays g (p.drive h through w).1 (q.drive h through w).1 ∧
      (q.drive h through w).2 = (p.drive h through w).2 ∧
      q.trace h through d w = p.trace h through d w := by
  induction hpq generalizing d w with
  | map g p =>
    rw [drive_bind, trace_bind]
    rcases hp : p.drive h through w with ⟨(a | e) | rest, v⟩
    · exact ⟨.finished (.value a), rfl, by simp [traceAfter, trace]⟩
    · exact ⟨.finished (.panic e), rfl, by simp [traceAfter]⟩
    · exact ⟨.pending (.map g rest), rfl, by simp [traceAfter]⟩
  | @inFrame β g p q fr _ ih =>
    obtain ⟨hstep, hstate, htrace⟩ := ih (d + fr.depth) (fr.enter w)
    simp only [Prog.inFrame, Prog.drive, trace, htrace]
    rcases hp : p.drive h through (fr.enter w) with ⟨sp, vp⟩
    rcases hq : q.drive h through (fr.enter w) with ⟨sq, vq⟩
    rw [hp, hq] at hstep hstate
    obtain rfl : vq = vp := hstate
    cases hstep with
    | finished x => exact ⟨.finished x, rfl, rfl⟩
    | pending hrest => exact ⟨.pending (.inFrame _ hrest), rfl, rfl⟩
  | @bind β γ g p q e k hpq hk ih =>
    obtain ⟨hstep, hstate, htrace⟩ := ih d w
    rw [drive_bind, trace_bind, htrace]
    rcases hp : p.drive h through w with ⟨sp, vp⟩
    rcases hq : q.drive h through w with ⟨sq, vq⟩
    rw [hp, hq] at hstep hstate
    obtain rfl : vq = vp := hstate
    cases hstep with
    | finished x =>
      cases x with
      | value a =>
        simp only [Exit.map, andThen, traceAfter, hk, Prog.drive, trace, List.append_nil]
        exact ⟨.finished (.value a), trivial, trivial⟩
      | panic e =>
        simp only [Exit.map, andThen, traceAfter, List.append_nil]
        exact ⟨.finished (.panic e), trivial, trivial⟩
    | pending hrest =>
      simp only [andThen, traceAfter, List.append_nil]
      exact ⟨.pending (.bind hrest hk), trivial, trivial⟩

/-- A program that relays another one has the same life up to the last value. -/
theorem Relays.life
    {g : α → β} {p : Prog H α} {q : Prog H β} (hpq : Relays g p q) (h : Handler H σ)
    (ws : List (World σ)) :
    Step.Relays g (p.life h ws).step (q.life h ws).step ∧
      (q.life h ws).states = (p.life h ws).states ∧
      (q.life h ws).trace = (p.life h ws).trace := by
  induction ws generalizing p q with
  | nil => exact ⟨.pending hpq, rfl, rfl⟩
  | cons w ws ih =>
    obtain ⟨hstep, hstate, htrace⟩ := hpq.drive h false 0 w
    rcases hp : p.poll h w with ⟨sp, vp⟩
    rcases hq : q.poll h w with ⟨sq, vq⟩
    rw [poll] at hp hq
    rw [hp, hq] at hstep hstate
    obtain rfl : vq = vp := hstate
    cases hstep with
    | finished x =>
      rw [life_of_finished ws hp, life_of_finished ws hq, htrace]
      exact ⟨.finished x, rfl, rfl⟩
    | pending hrest =>
      obtain ⟨hl, hs, ht⟩ := ih hrest
      rw [life_of_pending ws hp, life_of_pending ws hq, htrace, hs, ht]
      exact ⟨hl, rfl, rfl⟩

end Prog
end TraceLineage
