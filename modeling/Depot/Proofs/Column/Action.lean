import Depot.Column.Store
import Depot.Proofs.Registry.Evaluation
import Depot.Proofs.Registry.Operations

/-!
# Safety of column actions

Statements of a column registry that go on between those of others, where a statement may fail and
ends its operation then. The rules take an action apart a statement at a time: what holds before a
statement is what holds of every state that others can have reached by then, and a failure needs no
further thought.

Headlines
* **`Keeps.statement_bind`**: the rule for a statement and what follows it.
* **`Keeps.authorize`**: the gate makes no other statement than a look-up of a password hash, and
  lets a caller through by what it finds.
-/

namespace Depot.Column

open Credential (Gate)
open Registry (Breakdown Error Request Sure)

variable {ι σ α β γ : Type}

/-- Programs of statements, each of which may break down. -/
def sessions (program : ι → Program Call Call.Reply α) (serve : ι → Service σ Call Call.Reply) :
    Protocol ι σ Breakdown Call Call.Reply α where
  program := program
  serve := serve
  fail b _ := .error (.backend b)

/-- An action is safe, and what it promises of an answer holds from then on. Nothing is promised of
an error. -/
structure Keeps (program : ι → Program Call Call.Reply α) (serve : ι → Service σ Call Call.Reply)
    (g : Regime σ) (i : ι) (post : β → σ → Prop) (x : Action β) (s : σ) : Prop where
  /-- It is safe as a program. -/
  safe : Safe (sessions program serve) g i (fun r t => ∀ b, r = .ok b → post b t) x.run s

namespace Keeps

variable {program : ι → Program Call Call.Reply α} {serve : ι → Service σ Call Call.Reply}
  {g : Regime σ} {i : ι} {post : β → σ → Prop} {s : σ}

theorem of_sure {x : Action β} (h : Sure (sessions program serve) g i post x s) :
    Keeps program serve g i post x s := ⟨h.safe⟩

theorem sure {x : Action β} (h : Keeps program serve g i post x s) :
    Sure (sessions program serve) g i post x s := ⟨h.safe⟩

theorem pure {b : β} (h : ∀ t, g.valid t → g.grows s t → post b t) :
    Keeps program serve g i post (Pure.pure b) s := of_sure (Sure.pure h)

theorem throw (e : Error) : Keeps program serve g i post (MonadExcept.throw e) s :=
  of_sure (Sure.throw e)

theorem lift {x : Except Error β} (h : ∀ b, x = .ok b → ∀ t, g.valid t → g.grows s t → post b t) :
    Keeps program serve g i post (liftM x) s :=
  ⟨fun t hv ht b hb => h b hb t hv ht⟩

theorem weaken {x : Action β} {post' : β → σ → Prop} (h : Keeps program serve g i post x s)
    (hpost : ∀ b t, g.valid t → post b t → post' b t) : Keeps program serve g i post' x s :=
  of_sure (h.sure.weaken hpost)

theorem remember {x : Action β} (h : Keeps program serve g i post x s) :
    Keeps program serve g i (fun b t => post b t ∧ g.grows s t) x s :=
  of_sure h.sure.remember

theorem bind {x : Action β} {f : β → Action γ} {post' : γ → σ → Prop}
    (h : Keeps program serve g i post x s)
    (hf : ∀ b t, g.valid t → g.grows s t → post b t → Keeps program serve g i post' (f b) t) :
    Keeps program serve g i post' (x >>= f) s :=
  of_sure (h.sure.bind fun b t hv ht hb => (hf b t hv ht (hb t hv (g.refl t))).sure)

/-- A statement and what follows it: from every state in which the statement can be made, it keeps
the state valid and lets it grow, and what follows is safe after each answer. -/
theorem statement_bind {c : Call} {f : c.Answer → Action β}
    (h : ∀ t, g.valid t → g.grows s t →
      g.valid (serve i t c).2 ∧ g.grows t (serve i t c).2 ∧
        ∀ a, (serve i t c).1 = .ok a → Keeps program serve g i post (f a) (serve i t c).2) :
    Keeps program serve g i post (statement c >>= f) s := by
  refine ⟨fun t fate hv ht => ?_⟩
  obtain ⟨h1, h2, h3⟩ := h t hv ht
  cases fate with
  | answered =>
    refine ⟨h1, h2, ?_⟩
    show Safe _ g i _ (ExceptT.bindCont f (serve i t c).1) (serve i t c).2
    cases hr : (serve i t c).1 with
    | ok a => exact (h3 a hr).safe
    | error e => exact Sure.safe_error e
  | refused e => exact ⟨hv, g.refl t, Sure.safe_error _⟩
  | unconfirmed e => exact ⟨h1, h2, Sure.safe_error _⟩

/-- A permitted statement and what follows it, where permitted statements keep the state valid and
let it grow. -/
theorem permitted_bind {permitted : σ → Call → Prop}
    (hstep : ∀ t c, g.valid t → permitted t c →
      g.valid (serve i t c).2 ∧ g.grows t (serve i t c).2)
    {c : Call} {f : c.Answer → Action β} (h : ∀ t, g.valid t → g.grows s t → permitted t c)
    (hf : ∀ t a, g.valid t → g.grows s t → (serve i t c).1 = .ok a →
      Keeps program serve g i post (f a) (serve i t c).2) :
    Keeps program serve g i post (Column.statement c >>= f) s := by
  refine statement_bind fun t hv ht => ?_
  obtain ⟨h1, h2⟩ := hstep t c hv (h t hv ht)
  exact ⟨h1, h2, fun a ha => hf t a hv ht ha⟩

/-- A statement by itself. -/
theorem statement {c : Call} {post : c.Answer → σ → Prop}
    (h : ∀ t, g.valid t → g.grows s t →
      g.valid (serve i t c).2 ∧ g.grows t (serve i t c).2 ∧
        ∀ a, (serve i t c).1 = .ok a →
          ∀ u, g.valid u → g.grows (serve i t c).2 u → post a u) :
    Keeps program serve g i post (Column.statement c) s := by
  rw [← bind_pure (Column.statement c)]
  refine statement_bind fun t hv ht => ?_
  obtain ⟨h1, h2, h3⟩ := h t hv ht
  exact ⟨h1, h2, fun a ha => pure (h3 a ha)⟩

theorem ok_of_mapError {ε ε' : Type} {f : ε → ε'} {x : Except ε β} {b : β}
    (h : x.mapError f = .ok b) : x = .ok b := by
  cases x with
  | ok a => exact congrArg Except.ok (Except.ok.inj h)
  | error e =>
    have hf : (Except.error (f e) : Except ε' β) = .ok b := h
    exact absurd hf (by simp)

/-- The gate looks up at most the password hash of a user, and lets a caller through by the hashes
of that time. -/
theorem authorize (gate : Gate) (r : Request) (hash : σ → String → Option String)
    (h : ∀ user t, g.valid t → g.grows s t →
      g.valid (serve i t (.findUser user)).2 ∧ g.grows t (serve i t (.findUser user)).2 ∧
        ∀ found, (serve i t (.findUser user)).1 = .ok found → found = hash t user) :
    Keeps program serve g i
      (fun _ _ => ∃ t, g.valid t ∧ gate.verdict (hash t) r.authorization = .ok ())
      (storage.authorize gate r) s := by
  constructor
  unfold Registry.Storage.authorize Gate.authorize Gate.check Gate.verdict
  cases gate with
  | everyone => exact fun t hv _ _ _ => ⟨t, hv, rfl⟩
  | external accepts => exact fun t hv _ b hb => ⟨t, hv, ok_of_mapError hb⟩
  | internal =>
    cases Credential.parseBasic r.authorization with
    | error why => exact Sure.safe_error _
    | ok login =>
      intro t fate hv ht
      obtain ⟨h1, h2, h3⟩ := h login.user t hv ht
      cases fate with
      | answered =>
        refine ⟨h1, h2, fun u hv' hu b hb => ⟨t, hv, ?_⟩⟩
        have hjudge : Credential.judge login (serve i t (.findUser login.user)).1 = .ok b :=
          ok_of_mapError hb
        cases hr : (serve i t (.findUser login.user)).1 with
        | ok found =>
          rw [hr, h3 found hr] at hjudge
          exact hjudge
        | error e =>
          rw [hr] at hjudge
          exact absurd hjudge (by simp [Credential.judge])
      | refused e => exact ⟨hv, g.refl t, Sure.safe_error _⟩
      | unconfirmed e => exact ⟨h1, h2, Sure.safe_error _⟩

end Keeps

end Depot.Column
