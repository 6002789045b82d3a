import TraceLineage.Proofs.Execution.Frames

/-!
# Contexts in cells

A finer account of driving, in which contexts have an identity.  Every scope that is opened has a
cell of its own for its context, and what is current is a cell and not just a context.  A guard
keeps the cell that was current when it began, and that is the cell that it clears at its end,
whatever is current by then.

What is held by a suspended program are the enclosures that it is inside of, with their cells.  That
it comes to the same as the program that `Prog.drive` leaves is shown elsewhere.
-/

namespace TraceLineage

/-- The contexts of all scopes that have been opened, facilities, and the state of the host. -/
structure Cells (σ : Type) where
  contexts : Nat → Context
  used : Nat
  facilities : Facilities
  host : σ

namespace Cells

variable {σ : Type}

/-- The state that a program finds where a cell is current, or none. -/
def world (s : Cells σ) (here : Option Nat) : World σ where
  ambient := here.map s.contexts
  facilities := s.facilities
  host := s.host

/-- The cells behind a change of the state found where a cell is current. -/
def write (s : Cells σ) (here : Option Nat) (w : World σ) : Cells σ where
  contexts i := if here = some i then w.ambient.getD (s.contexts i) else s.contexts i
  used := s.used
  facilities := w.facilities
  host := w.host

def alloc (s : Cells σ) (ctx : Context) : Cells σ :=
  { s with contexts := fun i => if i = s.used then ctx else s.contexts i, used := s.used + 1 }

def clear (s : Cells σ) (cell : Option Nat) : Cells σ :=
  { s with contexts := fun i => if cell = some i then .empty else s.contexts i }

/-- Makes the last of some spans current. -/
def withSpans (s : Cells σ) (path : List Span) : Cells σ :=
  { s with facilities := { s.facilities with spans := path } }

theorem world_write
    (s : Cells σ) {here : Option Nat} {w : World σ} (hw : w.ambient.isSome = here.isSome) :
    (s.write here w).world here = w := by
  obtain ⟨ambient, facilities, host⟩ := w
  cases here with
  | none =>
    obtain rfl : ambient = none := Option.isNone_iff_eq_none.1 (Option.isSome_eq_false_iff.1 hw)
    rfl
  | some k =>
    obtain ⟨ctx, rfl⟩ : ∃ ctx, ambient = some ctx := Option.isSome_iff_exists.1 hw
    simp only [world, write, Option.map_some, if_pos, Option.getD_some]

theorem world_clear
    (s : Cells σ) (here : Option Nat) :
    (s.clear here).world here = (s.world here).clear := by
  cases here with
  | none => rfl
  | some k => simp only [world, clear, World.clear, Option.map_some, if_pos]

theorem isSome_world
    (s : Cells σ) (here : Option Nat) :
    (s.world here).ambient.isSome = here.isSome :=
  Option.isSome_map

end Cells

/-- A frame that has been entered.  A scope has become a cell, and a guard knows the cell that was
current when it began. -/
inductive Enclosure where
  | scope (k : Nat)
  | guard (cell : Option Nat)
  | span (path : List Span)
  | detached
  | extent
  deriving DecidableEq

/-- Opens a frame where a cell is current. -/
def Frame.opened {σ : Type} (fr : Frame) (here : Option Nat) (s : Cells σ) : Enclosure × Cells σ :=
  match fr with
  | scope ctx => (.scope s.used, s.alloc ctx)
  | guard _ => (.guard here, s)
  | span path => (.span path, s)
  | detached => (.detached, s)
  | extent => (.extent, s)

namespace Enclosure

variable {σ : Type}

def cell (enc : Enclosure) (here : Option Nat) : Option Nat :=
  match enc with
  | scope k => some k
  | guard _ => here
  | span _ => here
  | detached => none
  | extent => here

/-- The cells on entering. -/
def enter (enc : Enclosure) (s : Cells σ) : Cells σ :=
  match enc with
  | scope _ => s
  | guard _ => s
  | span path => s.withSpans path
  | detached => s.withSpans []
  | extent => s

/-- Puts back the spans that had been replaced: `s` are the cells in front of the enclosure, `v`
those inside it at the end. -/
def restore (enc : Enclosure) (s v : Cells σ) : Cells σ :=
  match enc with
  | scope _ => v
  | guard _ => v
  | span _ => v.withSpans s.facilities.spans
  | detached => v.withSpans s.facilities.spans
  | extent => v

/-- The cells behind an enclosure whose part has ended or is dropped.  A guard clears the cell that
it has kept. -/
def leave (enc : Enclosure) (s v : Cells σ) : Cells σ :=
  match enc with
  | guard cell => v.clear cell
  | enc => enc.restore s v

/-- The frame in which the part of an enclosure is suspended. -/
def frame (enc : Enclosure) (contexts : Nat → Context) : Frame :=
  match enc with
  | scope k => .scope (contexts k)
  | guard _ => .guard true
  | span path => .span path
  | detached => .detached
  | extent => .extent

/-- The cells that are cleared when an enclosure is left. -/
def cleared : Enclosure → List (Option Nat)
  | guard cell => [cell]
  | _ => []

end Enclosure

/-- The rest of a program, with the enclosures around what is suspended. -/
inductive Held (H : Type → Type) : Type → Type 1 where
  | outside {α : Type} (p : Prog H α) : Held H α
  | inside {α β : Type} (enc : Enclosure) (body : Held H β) (next : Exit β → Prog H α) : Held H α

/-- What a poll leaves: the exit of the program or the rest of it. -/
inductive HeldStep (H : Type → Type) (α : Type) : Type 1 where
  | finished (x : Exit α)
  | pending (rest : Held H α)

namespace Held

variable {H : Type → Type} {σ : Type}

/-- The rest as a program, whose frames hold the contexts of their cells. -/
def prog (contexts : Nat → Context) : {α : Type} → Held H α → Prog H α
  | _, outside p => p
  | _, inside enc body next => .frame (enc.frame contexts) (body.prog contexts) next

/-- The cells of the guards that have begun and not ended, outermost first. -/
def guards : {α : Type} → Held H α → List (Option Nat)
  | _, outside _ => []
  | _, inside enc body _ => enc.cleared ++ body.guards

/-- Drops what is held: the guards clear their cells, from the inside out. -/
def drop : {α : Type} → Held H α → Cells σ → Cells σ
  | _, outside _, s => s
  | _, inside enc body _, s => enc.leave s (body.drop (enc.enter s))

end Held

def HeldStep.step {H : Type → Type} {α : Type} (contexts : Nat → Context) :
    HeldStep H α → Step H α
  | finished x => .finished x
  | pending rest => .pending (rest.prog contexts)

/-- Runs a program up to its next suspension or, with `through`, up to its end, where a cell is
current. -/
def Prog.driveAt {H : Type → Type} {σ : Type} (h : Handler H σ) :
    {α : Type} → Prog H α → Bool → Option Nat → Cells σ → HeldStep H α × Cells σ
  | _, done x, _, _, s => (.finished x, s)
  | _, suspend rest, through, here, s =>
    if through then rest.driveAt h through here s else (.pending (.outside rest), s)
  | _, never, _, _, s => (.pending (.outside never), s)
  | _, op o next, through, here, s =>
    let (r, w) := (s.world here).perform o
    (next r).driveAt h through here (s.write here w)
  | _, host r next, through, here, s =>
    match h _ r (s.world here) with
    | (some (.value a), w) => (next a).driveAt h through here (s.write here w)
    | (some (.panic p), w) => (.finished (.panic p), s.write here w)
    | (none, w) => (.pending (.outside (host r next)), s.write here w)
  | _, frame fr body next, through, here, s =>
    let (enc, s) := fr.opened here s
    match body.driveAt h through (enc.cell here) (enc.enter s) with
    | (.finished x, v) => (next x).driveAt h through here (enc.leave s v)
    | (.pending rest, v) => (.pending (.inside enc rest next), enc.restore s v)
  | _, block body next, through, here, s =>
    match body.driveAt h true here s with
    | (.finished x, v) => (next (some x)).driveAt h through here v
    | (.pending rest, v) => (next none).driveAt h through here (rest.drop v)

/-- Goes on behind a step of the part of an enclosure, which has been entered from the cells `s`. -/
def Enclosure.settle {H : Type → Type} {σ α β : Type} (h : Handler H σ) (enc : Enclosure)
    (next : Exit β → Prog H α) (through : Bool) (here : Option Nat) (s : Cells σ) :
    HeldStep H β × Cells σ → HeldStep H α × Cells σ
  | (.finished x, v) => (next x).driveAt h through here (enc.leave s v)
  | (.pending rest, v) => (.pending (.inside enc rest next), enc.restore s v)

def Held.driveAt {H : Type → Type} {σ : Type} (h : Handler H σ) :
    {α : Type} → Held H α → Bool → Option Nat → Cells σ → HeldStep H α × Cells σ
  | _, outside p, through, here, s => p.driveAt h through here s
  | _, inside enc body next, through, here, s =>
    enc.settle h next through here s (body.driveAt h through (enc.cell here) (enc.enter s))

theorem Prog.driveAt_frame
    {H : Type → Type} {σ α β : Type} (h : Handler H σ) (fr : Frame) (body : Prog H β)
    (next : Exit β → Prog H α) (through : Bool) (here : Option Nat) (s : Cells σ) :
    (frame fr body next).driveAt h through here s =
      let (enc, s) := fr.opened here s
      enc.settle h next through here s (body.driveAt h through (enc.cell here) (enc.enter s)) := by
  simp only [driveAt]
  rcases body.driveAt h through ((fr.opened here s).1.cell here)
    ((fr.opened here s).1.enter (fr.opened here s).2) with ⟨x | rest, v⟩ <;> rfl

/-! ## Cells of their own -/

/-- The cells below `n` keep their contexts, except for the current one. -/
def Cells.Keeps {σ : Type} (here : Option Nat) (n : Nat) (s v : Cells σ) : Prop :=
  ∀ k, k < n → here ≠ some k → v.contexts k = s.contexts k

theorem Cells.Keeps.trans
    {σ : Type} {here : Option Nat} {n : Nat} {s u v : Cells σ} (hsu : Keeps here n s u)
    (huv : Keeps here n u v) :
    Keeps here n s v :=
  fun k hk hne => (huv k hk hne).trans (hsu k hk hne)

theorem Cells.keeps_write
    {σ : Type} (here : Option Nat) (n : Nat) (s : Cells σ) (w : World σ) :
    Keeps here n s (s.write here w) :=
  fun _ _ hne => if_neg hne

namespace Enclosure

variable {σ : Type}

/-- An enclosure belongs where a cell is current: the cell of a scope is new, from `n` on and in
use, and a guard has kept the cell that is current. -/
def Fits (enc : Enclosure) (here : Option Nat) (n used : Nat) : Prop :=
  match enc with
  | scope k => n ≤ k ∧ k < used
  | guard cell => cell = here
  | span _ => True
  | detached => True
  | extent => True

/-- From where on the cells are new inside an enclosure. -/
def above (enc : Enclosure) (n : Nat) : Nat :=
  match enc with
  | scope k => k + 1
  | _ => n

variable {enc : Enclosure} {here : Option Nat} {n used : Nat}

theorem Fits.mono
    (henc : enc.Fits here n used) {used' : Nat} (hused : used ≤ used') :
    enc.Fits here n used' := by
  cases enc with
  | scope k => exact ⟨henc.1, Nat.lt_of_lt_of_le henc.2 hused⟩
  | _ => exact henc

theorem Fits.above_le
    (henc : enc.Fits here n used) (hn : n ≤ used) :
    enc.above n ≤ used := by
  cases enc with
  | scope k => exact henc.2
  | _ => exact hn

/-- The cell that is current inside is the one outside or a new one. -/
theorem Fits.cell_lt_above
    (henc : enc.Fits here n used) (hhere : ∀ k, here = some k → k < n) :
    ∀ k, enc.cell here = some k → k < enc.above n := by
  intro k hk
  cases enc with
  | scope k' =>
    obtain rfl : k' = k := Option.some.inj hk
    exact Nat.lt_succ_self k'
  | detached => exact nomatch hk
  | _ => exact hhere k hk

/-- What is inside an enclosure with another cell reaches none of the cells below. -/
theorem Fits.keeps_below
    (henc : enc.Fits here n used) {s v : Cells σ} (hv : s.Keeps (enc.cell here) (enc.above n) v)
    (contexts : Nat → Context) (hhides : (enc.frame contexts).hidesContext = true) {k : Nat}
    (hk : k < n) :
    v.contexts k = s.contexts k := by
  cases enc with
  | scope k' =>
    have hlt : k < k' := Nat.lt_of_lt_of_le hk henc.1
    exact hv k (Nat.lt_succ_of_lt hlt) fun hk' => Nat.ne_of_gt hlt (Option.some.inj hk')
  | detached => exact hv k hk nofun
  | _ => exact absurd hhides Bool.false_ne_true

/-- What keeps the cells inside an enclosure keeps them outside. -/
theorem Fits.keeps
    (henc : enc.Fits here n used) {s v : Cells σ} (hv : s.Keeps (enc.cell here) (enc.above n) v) :
    s.Keeps here n v := by
  intro k hk hne
  cases enc with
  | scope k' => exact henc.keeps_below hv s.contexts rfl hk
  | detached => exact henc.keeps_below hv s.contexts rfl hk
  | _ => exact hv k hk hne

/-- Inside an enclosure with another cell the one outside keeps its context. -/
theorem Fits.keeps_here
    (henc : enc.Fits here n used) (hhere : ∀ k, here = some k → k < n) {s v : Cells σ}
    (hv : s.Keeps (enc.cell here) (enc.above n) v) (contexts : Nat → Context)
    (hhides : (enc.frame contexts).hidesContext = true) :
    here.map v.contexts = here.map s.contexts := by
  cases here with
  | none => rfl
  | some k => exact congrArg some (henc.keeps_below hv contexts hhides (hhere k rfl))

/-- What opening a frame makes: an enclosure that belongs there, and a new cell at most. -/
theorem fits_opened
    (fr : Frame) {s : Cells σ} (hn : n ≤ s.used) (hhere : ∀ k, here = some k → k < n) :
    (fr.opened here s).1.Fits here n (fr.opened here s).2.used ∧
      s.used ≤ (fr.opened here s).2.used ∧ s.Keeps here n (fr.opened here s).2 ∧
      (fr.opened here s).2.world here = s.world here := by
  cases fr with
  | scope ctx =>
    have hold : ∀ k, k < n → (s.alloc ctx).contexts k = s.contexts k :=
      fun k hk => if_neg (Nat.ne_of_lt (Nat.lt_of_lt_of_le hk hn))
    refine ⟨⟨hn, Nat.lt_succ_self _⟩, Nat.le_succ _, fun k hk _ => hold k hk, ?_⟩
    cases here with
    | none => rfl
    | some k =>
      simp only [Frame.opened, Cells.world, Option.map_some, hold k (hhere k rfl)]
      rfl
  | guard begun => exact ⟨rfl, Nat.le_refl _, fun _ _ _ => rfl, rfl⟩
  | _ => exact ⟨trivial, Nat.le_refl _, fun _ _ _ => rfl, rfl⟩

variable (enc)

theorem world_enter
    (here : Option Nat) (s : Cells σ) :
    (enc.enter s).world (enc.cell here) = (enc.frame s.contexts).enter (s.world here) := by
  cases enc <;> rfl

@[simp]
theorem contexts_enter
    (s : Cells σ) :
    (enc.enter s).contexts = s.contexts := by
  cases enc <;> rfl

theorem keeps_of_enter
    {s v : Cells σ} {cell : Option Nat} {n : Nat} (hv : (enc.enter s).Keeps cell n v) :
    s.Keeps cell n v := by
  cases enc <;> exact hv

@[simp]
theorem contexts_restore
    (s v : Cells σ) :
    (enc.restore s v).contexts = v.contexts := by
  cases enc <;> rfl

/-- Leaving an enclosure changes nothing but the cell of a guard. -/
theorem contexts_leave
    (s v : Cells σ) (k : Nat) :
    (enc.leave s v).contexts k = if some k ∈ enc.cleared then .empty else v.contexts k := by
  cases enc with
  | guard cell =>
    simp only [leave, Cells.clear, cleared, List.mem_singleton]
    by_cases hcell : cell = some k
    · rw [if_pos hcell, if_pos hcell.symm]
    · rw [if_neg hcell, if_neg (Ne.symm hcell)]
  | _ => rfl

@[simp]
theorem used_enter
    (s : Cells σ) :
    (enc.enter s).used = s.used := by
  cases enc <;> rfl

@[simp]
theorem used_restore
    (s v : Cells σ) :
    (enc.restore s v).used = v.used := by
  cases enc <;> rfl

@[simp]
theorem used_leave
    (s v : Cells σ) :
    (enc.leave s v).used = v.used := by
  cases enc <;> rfl

@[simp]
theorem parked_frame
    (contexts : Nat → Context) (here : Option Nat) (v : Cells σ) :
    (enc.frame contexts).parked (v.world (enc.cell here)) = enc.frame v.contexts := by
  cases enc <;> rfl

@[simp]
theorem abandon_frame
    (contexts : Nat → Context) (w v : World σ) :
    (enc.frame contexts).abandon w v = (enc.frame contexts).leave w v := by
  cases enc <;> rfl

variable {enc}

/-- Inside and outside are seen at the end of an enclosure as they are behind a frame. -/
theorem Fits.world_restore
    (henc : enc.Fits here n used) (hhere : ∀ k, here = some k → k < n) {s v : Cells σ}
    (hv : s.Keeps (enc.cell here) (enc.above n) v) (contexts : Nat → Context) :
    (enc.restore s v).world here =
      (enc.frame contexts).restore (s.world here) (v.world (enc.cell here)) := by
  have hkept := henc.keeps_here hhere hv contexts
  cases enc with
  | scope k =>
    simp only [restore, frame, Frame.restore, Cells.world, hkept rfl]
  | detached =>
    simp only [restore, frame, Frame.restore, Cells.world, Cells.withSpans, World.withSpans,
      hkept rfl]
  | _ => rfl

theorem Fits.world_leave
    (henc : enc.Fits here n used) (hhere : ∀ k, here = some k → k < n) {s v : Cells σ}
    (hv : s.Keeps (enc.cell here) (enc.above n) v) (contexts : Nat → Context) :
    (enc.leave s v).world here =
      (enc.frame contexts).leave (s.world here) (v.world (enc.cell here)) := by
  have hrestore := henc.world_restore hhere hv contexts
  cases enc with
  | guard cell =>
    obtain rfl : cell = here := henc
    exact v.world_clear cell
  | _ => exact hrestore

theorem Fits.keeps_restore
    (henc : enc.Fits here n used) {s v : Cells σ} (hv : s.Keeps (enc.cell here) (enc.above n) v) :
    s.Keeps here n (enc.restore s v) := by
  intro k hk hne
  rw [enc.contexts_restore]
  exact henc.keeps hv k hk hne

theorem Fits.keeps_leave
    (henc : enc.Fits here n used) {s v : Cells σ} (hv : s.Keeps (enc.cell here) (enc.above n) v) :
    s.Keeps here n (enc.leave s v) := by
  intro k hk hne
  rw [enc.contexts_leave, if_neg, henc.keeps hv k hk hne]
  intro hcleared
  cases enc with
  | guard cell =>
    obtain rfl : cell = here := henc
    exact hne (List.mem_singleton.1 hcleared).symm
  | _ => exact nomatch hcleared

end Enclosure

/-! ## Dropping what is held -/

/-- A program as it is written: no guard of it has begun. -/
def Prog.Pristine {H : Type → Type} : {α : Type} → Prog H α → Prop
  | _, done _ => True
  | _, suspend rest => rest.Pristine
  | _, never => True
  | _, op _ next => ∀ r, (next r).Pristine
  | _, host _ next => ∀ a, (next a).Pristine
  | _, frame fr body next => fr ≠ .guard true ∧ body.Pristine ∧ ∀ x, (next x).Pristine
  | _, block body next => body.Pristine ∧ ∀ x, (next x).Pristine

theorem Prog.Pristine.drop
    {H : Type → Type} {σ α : Type} {p : Prog H α} (hp : p.Pristine) (w : World σ) :
    p.drop w = w := by
  induction p generalizing w with
  | frame fr body next ih _ =>
    obtain ⟨hfr, hbody, _⟩ := hp
    rw [Prog.drop, ih hbody]
    cases fr with
    | guard begun =>
      cases begun with
      | false => rfl
      | true => exact absurd rfl hfr
    | _ => rfl
  | _ => rfl

namespace Held

variable {H : Type → Type} {σ α : Type}

/-- What is held fits where a cell is current: its enclosures do, and what has not been entered is
as it is written. -/
def Fits : {α : Type} → Held H α → Option Nat → Nat → Nat → Prop
  | _, outside p, _, _, _ => p.Pristine
  | _, inside enc body next, here, n, used =>
    enc.Fits here n used ∧ body.Fits (enc.cell here) (enc.above n) used ∧ ∀ x, (next x).Pristine

theorem Fits.prog_congr
    {q : Held H α} {here : Option Nat} {n used : Nat} (hq : q.Fits here n used)
    {contexts contexts' : Nat → Context} (hcontexts : ∀ k, n ≤ k → contexts' k = contexts k) :
    q.prog contexts' = q.prog contexts := by
  induction q generalizing here n with
  | outside p => rfl
  | inside enc body next ih =>
    obtain ⟨henc, hbody, _⟩ := hq
    have hinside : body.prog contexts' = body.prog contexts := by
      refine ih hbody ?_
      intro k hk
      cases enc with
      | scope k' => exact hcontexts k (Nat.le_trans (Nat.le_succ_of_le henc.1) hk)
      | _ => exact hcontexts k hk
    have hframe : enc.frame contexts' = enc.frame contexts := by
      cases enc with
      | scope k' => exact congrArg Frame.scope (hcontexts k' henc.1)
      | _ => rfl
    rw [prog, prog, hinside, hframe]

theorem contexts_drop
    (q : Held H α) (s : Cells σ) (k : Nat) :
    (q.drop s).contexts k = if some k ∈ q.guards then .empty else s.contexts k := by
  induction q generalizing s with
  | outside p => rfl
  | inside enc body next ih =>
    rw [drop, enc.contexts_leave, ih, enc.contexts_enter]
    simp only [guards, List.mem_append]
    by_cases henc : some k ∈ enc.cleared
    · rw [if_pos henc, if_pos (Or.inl henc)]
    · simp only [henc, false_or, if_false]

theorem drop_eq
    (q : Held H α) (s : Cells σ) :
    q.drop s = { s with contexts := (q.drop s).contexts } := by
  induction q generalizing s with
  | outside p => rfl
  | inside enc body next ih =>
    rw [drop, ih]
    cases enc <;> rfl

@[simp]
theorem used_drop
    (q : Held H α) (s : Cells σ) :
    (q.drop s).used = s.used := by
  rw [q.drop_eq]

theorem Fits.keeps_drop
    {q : Held H α} {here : Option Nat} {n used : Nat} (hq : q.Fits here n used) (s : Cells σ) :
    s.Keeps here n (q.drop s) := by
  induction q generalizing here n s with
  | outside p => exact fun _ _ _ => rfl
  | inside enc body next ih =>
    obtain ⟨henc, hbody, _⟩ := hq
    exact henc.keeps_leave (enc.keeps_of_enter (ih hbody (enc.enter s)))

theorem Fits.world_drop
    {q : Held H α} {here : Option Nat} {n used : Nat} (hq : q.Fits here n used)
    (hhere : ∀ k, here = some k → k < n) (s : Cells σ) :
    (q.prog s.contexts).drop (s.world here) = (q.drop s).world here := by
  induction q generalizing here n s with
  | outside p => exact Prog.Pristine.drop hq _
  | inside enc body next ih =>
    obtain ⟨henc, hbody, _⟩ := hq
    have hinside := ih hbody (henc.cell_lt_above hhere) (enc.enter s)
    have hkeeps := enc.keeps_of_enter (hbody.keeps_drop (enc.enter s))
    rw [enc.contexts_enter, enc.world_enter] at hinside
    rw [prog, Prog.drop, hinside, enc.abandon_frame, drop, henc.world_leave hhere hkeeps]

end Held

end TraceLineage
