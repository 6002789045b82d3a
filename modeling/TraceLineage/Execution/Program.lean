import TraceLineage.Boundary

/-!
# Programs of execution units

What an execution unit does, as a tree: it operates on the context in scope and on the facilities,
makes requests to a host, suspends, fails by panic, and runs parts of itself inside frames.  A frame
is a scope with a context of its own, a guard that clears the context when it ends, a span, a
detached thread, or merely the extent over which a panic is caught.

A program is polled.  A poll runs up to the next suspension, and what remains is a program again,
whose frames hold what they need to be entered once more.
-/

namespace TraceLineage

/-- What a panic carries: a message, or anything else. -/
inductive Payload where
  | text (s : String)
  | other
  deriving DecidableEq, Repr

/-- The message of a payload, if it is one. -/
def Payload.message? : Payload → Option String
  | text s => some s
  | other => none

/-- How a program ends. -/
inductive Exit (α : Type) where
  | value (a : α)
  | panic (p : Payload)
  deriving DecidableEq, Repr

/-- The operations of the library, by the type of their results.  An id is resolved in the context
in scope or in another one, and generated without being stored anywhere. -/
inductive Op : Type → Type where
  | snapshot : Op (Option Context)
  | set (id : TraceId) : Op (Except Fault Unit)
  | put (key value : String) : Op (Except Fault Unit)
  | clear : Op Unit
  | resolve (c : Config) (b : Boundary) : Op (Except Fault TraceId)
  | resolveIn (c : Config) (b : Boundary) (ctx : Context) : Op (Except Fault TraceId × Context)
  | generate (c : Config) (i : Invoker) (parent : Option TraceId) : Op (Except Fault TraceId)
  | emit (e : Event) : Op Unit
  | spans : Op (List Span)

/-- What encloses a part of a program while it runs: a context of its own; a guard, which clears the
context in scope when the part ends or, once it has begun, when it is dropped; spans, of which the
last one is current; a thread without a context and without spans; or nothing but an extent. -/
inductive Frame where
  | scope (ctx : Context)
  | guard (begun : Bool)
  | span (path : List Span)
  | detached
  | extent
  deriving DecidableEq

/-- A program over the requests `H` of its host, with results of type `α`.  It ends, suspends once
or forever, performs an operation, makes a request to the host, and again at every poll until it has
an answer, runs a part inside a frame, or runs a part through its suspensions on the spot, which
yields `none` if that does not bring it to an end. -/
inductive Prog (H : Type → Type) : Type → Type 1 where
  | done {α : Type} (x : Exit α) : Prog H α
  | suspend {α : Type} (rest : Prog H α) : Prog H α
  | never {α : Type} : Prog H α
  | op {α γ : Type} (o : Op γ) (next : γ → Prog H α) : Prog H α
  | host {α γ : Type} (r : H γ) (next : γ → Prog H α) : Prog H α
  | frame {α β : Type} (fr : Frame) (body : Prog H β) (next : Exit β → Prog H α) : Prog H α
  | block {α β : Type} (body : Prog H β) (next : Option (Exit β) → Prog H α) : Prog H α

namespace Prog

variable {H : Type → Type} {α β γ : Type}

/-- Continues a program with its value; a panic ends both. -/
def bind (p : Prog H α) (f : α → Prog H β) : Prog H β :=
  match p with
  | done (.value a) => f a
  | done (.panic e) => done (.panic e)
  | suspend rest => suspend (rest.bind f)
  | never => never
  | op o next => op o fun r => (next r).bind f
  | host r next => host r fun a => (next a).bind f
  | frame fr body next => frame fr body fun x => (next x).bind f
  | block body next => block body fun x => (next x).bind f

instance : Monad (Prog H) where
  pure a := done (.value a)
  bind := bind

theorem bind_value
    (p : Prog H α) :
    (p.bind fun a => done (.value a)) = p := by
  induction p with
  | done x => cases x <;> rfl
  | suspend rest ih => simp [bind, ih]
  | never => rfl
  | op o next ih => simp [bind, ih]
  | host r next ih => simp [bind, ih]
  | frame fr body next _ ih => simp [bind, ih]
  | block body next _ ih => simp [bind, ih]

theorem bind_bind
    (p : Prog H α) (f : α → Prog H β) (g : β → Prog H γ) :
    (p.bind f).bind g = p.bind fun a => (f a).bind g := by
  induction p with
  | done x => cases x <;> rfl
  | suspend rest ih => simp [bind, ih]
  | never => rfl
  | op o next ih => simp [bind, ih]
  | host r next ih => simp [bind, ih]
  | frame fr body next _ ih => simp [bind, ih]
  | block body next _ ih => simp [bind, ih]

instance : LawfulMonad (Prog H) :=
  LawfulMonad.mk' _ bind_value (fun _ _ => rfl) bind_bind

/-- Runs a part inside a frame and passes its exit on. -/
def inFrame (fr : Frame) (body : Prog H α) : Prog H α :=
  frame fr body done

/-- Runs a part and yields its exit, a panic included. -/
def attempt (body : Prog H α) : Prog H (Exit α) :=
  frame .extent body fun x => pure x

/-- Runs a part on the spot; if that does not bring it to an end, the whole suspends forever. -/
def inPlace (body : Prog H α) : Prog H α :=
  block body fun x => x.elim never done

def withoutYields : {α : Type} → Prog H α → Prog H α
  | _, done x => done x
  | _, suspend rest => rest.withoutYields
  | _, never => never
  | _, op o next => op o fun r => (next r).withoutYields
  | _, host r next => host r fun a => (next a).withoutYields
  | _, frame fr body next => frame fr body.withoutYields fun x => (next x).withoutYields
  | _, block body next => block body.withoutYields fun x => (next x).withoutYields

end Prog
end TraceLineage
