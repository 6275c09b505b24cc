/-!
# Programs

A computation that makes calls to a service and goes on with the replies. The calls are data, so
one definition of an operation can be run to its end, run with calls that fail, or run a call at a
time between the calls of other operations.

Headlines
* **`run_bind`**: running a sequence is running its parts in order; **`run_bind_of_ok`** and
  **`run_bind_of_error`** if they may fail.
-/

namespace Depot

/-- A computation that makes calls `c` and goes on with replies of type `Reply c`. -/
inductive Program (Call : Type) (Reply : Call → Type) (α : Type) where
  /-- The end, with a result. -/
  | done (value : α)
  /-- A call, and how to go on after each reply. -/
  | call (c : Call) (next : Reply c → Program Call Reply α)

/-- A service over states `σ`: the reply to a call and the state after it. -/
abbrev Service (σ Call : Type) (Reply : Call → Type) := σ → (c : Call) → Reply c × σ

namespace Program

variable {Call : Type} {Reply : Call → Type} {α β σ : Type}

/-- Goes on with `f` after the end. -/
def bind : Program Call Reply α → (α → Program Call Reply β) → Program Call Reply β
  | .done a, f => f a
  | .call c next, f => .call c fun r => (next r).bind f

instance : Monad (Program Call Reply) where
  pure := .done
  bind := bind

/-- A single call. -/
def perform (c : Call) : Program Call Reply (Reply c) := .call c .done

/-- Runs a program to its end. -/
def run (service : Service σ Call Reply) : Program Call Reply α → σ → α × σ
  | .done a, s => (a, s)
  | .call c next, s =>
    let (r, s') := service s c
    (next r).run service s'

@[simp] theorem pure_eq_done (a : α) : (pure a : Program Call Reply α) = .done a := rfl

@[simp] theorem bind_eq_bind (p : Program Call Reply α) (f : α → Program Call Reply β) :
    p >>= f = p.bind f := rfl

@[simp] theorem bind_done (p : Program Call Reply α) : p.bind .done = p := by
  induction p with
  | done a => rfl
  | call c next ih => simp [bind, ih]

theorem bind_assoc {γ : Type} (p : Program Call Reply α) (f : α → Program Call Reply β)
    (g : β → Program Call Reply γ) : (p.bind f).bind g = p.bind fun a => (f a).bind g := by
  induction p with
  | done a => rfl
  | call c next ih => simp [bind, ih]

instance : LawfulMonad (Program Call Reply) := LawfulMonad.mk' _
  (fun p => bind_done p) (fun _ _ => rfl) (fun p f g => bind_assoc p f g)

/-- A sequence runs its second part from the state that the first one leaves. -/
theorem run_bind (service : Service σ Call Reply) (p : Program Call Reply α)
    (f : α → Program Call Reply β) (s : σ) :
    (p.bind f).run service s = (f (p.run service s).1).run service (p.run service s).2 := by
  induction p generalizing s with
  | done a => rfl
  | call c next ih => simp [bind, run, ih]

section

variable {ε : Type} {service : Service σ Call Reply} {x : ExceptT ε (Program Call Reply) α}
  {f : α → ExceptT ε (Program Call Reply) β} {s s' : σ}

/-- After a success of its first part a sequence of computations that may fail runs the second
one. -/
theorem run_bind_of_ok {a : α} (h : Program.run service x.run s = (.ok a, s')) :
    Program.run service (x >>= f).run s = Program.run service (f a).run s' := by
  refine (run_bind service x.run _ s).trans ?_
  rw [h]
  rfl

/-- After a failure it is over. -/
theorem run_bind_of_error {e : ε} (h : Program.run service x.run s = (.error e, s')) :
    Program.run service (x >>= f).run s = (.error e, s') := by
  refine (run_bind service x.run _ s).trans ?_
  rw [h]
  rfl

end

end Program

end Depot
