import Depot.Program

/-!
# Interleaved programs

Any number of programs over one state, started at any time and going on a call at a time in any
order, where each call may also fail, whether or not it was made. A property of all their runs is
reduced to one of a program by itself: what it keeps and what it lets grow, given that the state
may change between any two of its calls as the others let it.

Headlines
* **`Protocol.run_sound`**: programs that are safe by themselves keep, in every run, what they are
  safe for, and each result is as promised from then on.
* **`Safe.bind`**, **`Safe.later`**: safety of a sequence from that of its parts, and safety once
  reached is kept while others go on.
* **`Safe.run`**: a safe program that runs undisturbed ends as promised.
* **`Protocol.run_makes`**: what is left of a program in a run makes no other calls than the whole
  one; `Safe.of_makes` is safety by the kind of the calls alone.
-/

namespace Depot

/-- What becomes of a call. -/
inductive Fate (ε : Type) where
  /-- It is made and answered. -/
  | answered
  /-- It fails and is not made. -/
  | refused (e : ε)
  /-- It fails although it is made. -/
  | unconfirmed (e : ε)
deriving DecidableEq, Repr

/-- Whether a call is made, answered or not. -/
def Fate.Made {ε : Type} : Fate ε → Prop
  | .refused _ => False
  | .answered | .unconfirmed _ => True

/-- A turn of programs that go on side by side. -/
inductive Turn (ι ε : Type) where
  /-- A program is started. -/
  | start (origin : ι)
  /-- The program that was the `n`-th to be started, counted from zero, goes on by a call. -/
  | call (n : Nat) (fate : Fate ε)
deriving DecidableEq, Repr

/-- What programs there are for which origin, what a state answers to their calls, and what a call
that fails answers. -/
structure Protocol (ι σ ε Call : Type) (Reply : Call → Type) (α : Type) where
  /-- The program of an origin. -/
  program : ι → Program Call Reply α
  /-- The answers to its calls. -/
  serve : ι → Service σ Call Reply
  /-- The answer of a call that fails. -/
  fail : ε → (c : Call) → Reply c

/-- A program that has been started. -/
structure Task (ι Call : Type) (Reply : Call → Type) (α : Type) where
  /-- Its origin. -/
  origin : ι
  /-- What is left of it. -/
  rest : Program Call Reply α

/-- The result of a program that is over. -/
def Task.result? {ι Call α : Type} {Reply : Call → Type} (t : Task ι Call Reply α) : Option α :=
  match t.rest with
  | .done a => some a
  | .call _ _ => none

/-- A state, and the programs that have been started over it in their order. -/
structure System (ι σ Call : Type) (Reply : Call → Type) (α : Type) where
  /-- The state. -/
  state : σ
  /-- The programs. -/
  tasks : List (Task ι Call Reply α) := []

/-- What has to hold of every state, and how a state may change. -/
structure Regime (σ : Type) where
  /-- What holds of every state. -/
  valid : σ → Prop
  /-- That the second state may come after the first one. -/
  grows : σ → σ → Prop
  /-- A state may stay. -/
  refl : ∀ s, grows s s
  /-- Changes add up. -/
  trans : ∀ {s t u}, grows s t → grows t u → grows s u

/-- Both hold of every state, and a state may change as both let it. -/
def Regime.both {σ : Type} (g h : Regime σ) : Regime σ where
  valid s := g.valid s ∧ h.valid s
  grows s t := g.grows s t ∧ h.grows s t
  refl s := ⟨g.refl s, h.refl s⟩
  trans hst htu := ⟨g.trans hst.1 htu.1, h.trans hst.2 htu.2⟩

variable {ι σ ε Call : Type} {Reply : Call → Type} {α β : Type}

/-! ### The calls of a program -/

/-- Every call that a program can come to make, whatever is replied, is of a kind. -/
def Program.Makes (P : Call → Prop) : Program Call Reply α → Prop
  | .done _ => True
  | .call c next => P c ∧ ∀ r, (next r).Makes P

namespace Program

variable {P : Call → Prop}

theorem Makes.bind {p : Program Call Reply α} {f : α → Program Call Reply β} (hp : p.Makes P)
    (hf : ∀ a, (f a).Makes P) : (p.bind f).Makes P := by
  induction p with
  | done a => exact hf a
  | call c next ih => exact ⟨hp.1, fun r => ih r (hp.2 r)⟩

/-- A sequence that may fail makes the calls of its parts. -/
theorem Makes.bind_action {err : Type} {x : ExceptT err (Program Call Reply) α}
    {f : α → ExceptT err (Program Call Reply) β} (hx : Program.Makes P x.run)
    (hf : ∀ a, Program.Makes P (f a).run) : Program.Makes P (x >>= f).run := by
  refine Makes.bind hx fun r => ?_
  cases r with
  | ok a => exact hf a
  | error e => trivial

theorem Makes.mono {p : Program Call Reply α} {Q : Call → Prop} (hp : p.Makes P)
    (h : ∀ c, P c → Q c) : p.Makes Q := by
  induction p with
  | done a => trivial
  | call c next ih => exact ⟨h c hp.1, fun r => ih r (hp.2 r)⟩

theorem makes_perform {c : Call} (h : P c) :
    (perform c : Program Call Reply (Reply c)).Makes P :=
  ⟨h, fun _ => trivial⟩

end Program

namespace Protocol

variable (m : Protocol ι σ ε Call Reply α)

/-- What a call comes back with, and the state after it. -/
def settle (i : ι) (s : σ) (c : Call) : Fate ε → Reply c × σ
  | .answered => m.serve i s c
  | .refused e => (m.fail e c, s)
  | .unconfirmed e => (m.fail e c, (m.serve i s c).2)

/-- The system after a turn. There is no call of a program that is over. -/
def advance (s : System ι σ Call Reply α) : Turn ι ε → System ι σ Call Reply α
  | .start i => { s with tasks := s.tasks ++ [⟨i, m.program i⟩] }
  | .call n fate =>
    match s.tasks[n]? with
    | some ⟨i, .call c next⟩ =>
      let (reply, state) := m.settle i s.state c fate
      ⟨state, s.tasks.set n ⟨i, next reply⟩⟩
    | _ => s

/-- The system after turns. -/
def run (s : System ι σ Call Reply α) (turns : List (Turn ι ε)) : System ι σ Call Reply α :=
  turns.foldl m.advance s

/-- The system after the first `k` of turns over a state, where nothing has been started before. -/
def reached (s : σ) (turns : List (Turn ι ε)) (k : Nat) : System ι σ Call Reply α :=
  m.run ⟨s, []⟩ (turns.take k)

theorem reached_succ {s : σ} {turns : List (Turn ι ε)} {k : Nat} {e : Turn ι ε}
    (he : turns[k]? = some e) : m.reached s turns (k + 1) = m.advance (m.reached s turns k) e := by
  unfold reached run
  rw [List.take_add_one, he, List.foldl_append]
  rfl

theorem reached_succ_of_none {s : σ} {turns : List (Turn ι ε)} {k : Nat}
    (he : turns[k]? = none) : m.reached s turns (k + 1) = m.reached s turns k := by
  have hlen := List.getElem?_eq_none_iff.mp he
  unfold reached
  rw [List.take_of_length_le hlen, List.take_of_length_le (Nat.le_succ_of_le hlen)]

/-- What `advance` can do: start a program, make one call of one task, or nothing. -/
theorem advance_cases (s : System ι σ Call Reply α) (e : Turn ι ε) :
    (∃ i, e = .start i ∧ m.advance s e = { s with tasks := s.tasks ++ [⟨i, m.program i⟩] }) ∨
    (∃ n i c next fate, e = .call n fate ∧ s.tasks[n]? = some ⟨i, .call c next⟩ ∧
      m.advance s e = ⟨(m.settle i s.state c fate).2,
        s.tasks.set n ⟨i, next (m.settle i s.state c fate).1⟩⟩) ∨
    m.advance s e = s := by
  cases e with
  | start i => exact Or.inl ⟨i, rfl, rfl⟩
  | call n fate =>
    simp only [advance]
    split
    · rename_i i c next hn
      exact Or.inr (Or.inl ⟨n, i, c, next, fate, rfl, hn, rfl⟩)
    · exact Or.inr (Or.inr rfl)

end Protocol

namespace Protocol

variable {m : Protocol ι σ ε Call Reply α}

/-- A turn of another program, or a start, leaves a program that has been started. -/
theorem advance_tasks_of_ne {s : System ι σ Call Reply α} {e : Turn ι ε} {n : Nat}
    {t : Task ι Call Reply α} (hn : s.tasks[n]? = some t) (he : ∀ fate, e ≠ .call n fate) :
    (m.advance s e).tasks[n]? = some t := by
  obtain ⟨i, -, hadv⟩ | ⟨n', i, c, next, fate, rfl, -, hadv⟩ | hadv := m.advance_cases s e
  · rw [hadv]
    exact (List.getElem?_append_left (List.getElem?_eq_some_iff.mp hn).1).trans hn
  · rw [hadv]
    have hne : n' ≠ n := by
      rintro rfl
      exact he fate rfl
    exact (List.getElem?_set_ne hne).trans hn
  · rw [hadv]
    exact hn

/-- Between its calls a program stays where it is. -/
theorem reached_tasks_of_le {s : σ} {turns : List (Turn ι ε)} {n j k : Nat}
    {t : Task ι Call Reply α} (hn : (m.reached s turns j).tasks[n]? = some t) (hjk : j ≤ k)
    (hidle : ∀ i, j ≤ i → i < k → ∀ fate, turns[i]? ≠ some (.call n fate)) :
    (m.reached s turns k).tasks[n]? = some t := by
  induction hjk with
  | refl => exact hn
  | step hjk ih =>
    rename_i k
    have hk := ih fun i hi hik => hidle i hi (Nat.lt_succ_of_lt hik)
    cases he : turns[k]? with
    | none => rwa [m.reached_succ_of_none he]
    | some e =>
      rw [m.reached_succ he]
      refine advance_tasks_of_ne hk fun fate hcall => ?_
      exact hidle k hjk (Nat.lt_succ_self k) fate (he.trans (congrArg some hcall))

/-- A program goes on by its call with what that comes back with. -/
theorem reached_succ_of_call {s : σ} {turns : List (Turn ι ε)} {n k : Nat} {fate : Fate ε} {i : ι}
    {c : Call} {next : Reply c → Program Call Reply α} (he : turns[k]? = some (.call n fate))
    (hn : (m.reached s turns k).tasks[n]? = some ⟨i, .call c next⟩) :
    (m.reached s turns (k + 1)).state = (m.settle i (m.reached s turns k).state c fate).2 ∧
      (m.reached s turns (k + 1)).tasks[n]? =
        some ⟨i, next (m.settle i (m.reached s turns k).state c fate).1⟩ := by
  rw [m.reached_succ he]
  unfold advance
  simp only [hn, true_and]
  exact List.getElem?_set_self (List.getElem?_eq_some_iff.mp hn).1

/-- A call leaves the state as it was or as the service leaves it. -/
theorem settle_cases (i : ι) (s : σ) (c : Call) (fate : Fate ε) :
    (m.settle i s c fate).2 = s ∨ (m.settle i s c fate).2 = (m.serve i s c).2 := by
  cases fate with
  | answered => exact Or.inr rfl
  | refused e => exact Or.inl rfl
  | unconfirmed e => exact Or.inr rfl

/-- At turn `k` a program makes a call, answered or not. The system after the first `k` turns is
`after k`. -/
def MakesAt (turns : List (Turn ι ε)) (after : Nat → System ι σ Call Reply α) (k : Nat) (i : ι)
    (c : Call) : Prop :=
  ∃ n fate next, turns[k]? = some (.call n fate) ∧ fate.Made ∧
    (after k).tasks[n]? = some ⟨i, .call c next⟩

/-- At a turn one program makes one call. -/
theorem MakesAt.unique {turns : List (Turn ι ε)} {after : Nat → System ι σ Call Reply α} {k : Nat}
    {i i' : ι} {c c' : Call} (h : MakesAt turns after k i c) (h' : MakesAt turns after k i' c') :
    i = i' ∧ c = c' := by
  obtain ⟨n, fate, next, hturn, -, htask⟩ := h
  obtain ⟨n', fate', next', hturn', -, htask'⟩ := h'
  obtain ⟨rfl, -⟩ := Turn.call.inj (Option.some.inj (hturn.symm.trans hturn'))
  obtain ⟨rfl, hrest⟩ := Task.mk.inj (Option.some.inj (htask.symm.trans htask'))
  exact ⟨rfl, (Program.call.inj hrest).1⟩

/-- A turn leaves the state as the call leaves it that it makes, and as it was if it makes none. -/
theorem reached_state_cases (s : σ) (turns : List (Turn ι ε)) (k : Nat) :
    (∃ i c, MakesAt turns (m.reached s turns) k i c ∧
      (m.reached s turns (k + 1)).state = (m.serve i (m.reached s turns k).state c).2) ∨
    ((∀ i c, ¬ MakesAt turns (m.reached s turns) k i c) ∧
      (m.reached s turns (k + 1)).state = (m.reached s turns k).state) := by
  by_cases h : ∃ i c, MakesAt turns (m.reached s turns) k i c
  · obtain ⟨i, c, n, fate, next, hturn, hmade, htask⟩ := h
    refine .inl ⟨i, c, ⟨n, fate, next, hturn, hmade, htask⟩, ?_⟩
    rw [(reached_succ_of_call hturn htask).1]
    cases fate with
    | refused e => exact hmade.elim
    | answered | unconfirmed e => rfl
  · refine .inr ⟨fun i c hc => h ⟨i, c, hc⟩, ?_⟩
    cases hturn : turns[k]? with
    | none => rw [m.reached_succ_of_none hturn]
    | some e =>
      rw [m.reached_succ hturn]
      obtain ⟨i, -, hadv⟩ | ⟨n, i, c, next, fate, rfl, htask, hadv⟩ | hadv :=
        m.advance_cases (m.reached s turns k) e
      · rw [hadv]
      · rw [hadv]
        cases fate with
        | refused e => rfl
        | answered | unconfirmed e => exact absurd ⟨i, c, n, _, next, hturn, trivial, htask⟩ h
      · rw [hadv]

/-- **What is left of a program makes no other calls than the whole one.** -/
theorem run_makes {P : ι → Call → Prop} {turns : List (Turn ι ε)}
    (hm : ∀ i, .start i ∈ turns → (m.program i).Makes (P i)) {s : System ι σ Call Reply α}
    (hs : ∀ t ∈ s.tasks, t.rest.Makes (P t.origin)) :
    ∀ t ∈ (m.run s turns).tasks, t.rest.Makes (P t.origin) := by
  induction turns generalizing s with
  | nil => exact hs
  | cons e turns ih =>
    refine ih (fun i hi => hm i (List.mem_cons_of_mem e hi)) fun t ht => ?_
    obtain ⟨i, rfl, he⟩ | ⟨n, i, c, next, fate, -, hn, he⟩ | he := m.advance_cases s e
    · rw [he] at ht
      rcases List.mem_append.mp ht with ht | ht
      · exact hs t ht
      · rw [List.mem_singleton.mp ht]
        exact hm i List.mem_cons_self
    · rw [he] at ht
      rcases List.mem_or_eq_of_mem_set ht with ht | rfl
      · exact hs t ht
      · exact (hs _ (List.mem_of_getElem? hn)).2 _
    · rw [he] at ht
      exact hs t ht

end Protocol

/-! ### Safety of a program -/

/-- From the state on, whatever others let grow before each call and whatever becomes of it, the
program makes only calls that keep the state valid and let it grow, and what holds of its result
goes on holding. -/
def Safe (m : Protocol ι σ ε Call Reply α) (g : Regime σ) (i : ι) (post : β → σ → Prop) :
    Program Call Reply β → σ → Prop
  | .done b, s => ∀ s', g.valid s' → g.grows s s' → post b s'
  | .call c next, s => ∀ s' fate, g.valid s' → g.grows s s' →
    g.valid (m.settle i s' c fate).2 ∧ g.grows s' (m.settle i s' c fate).2 ∧
      Safe m g i post (next (m.settle i s' c fate).1) (m.settle i s' c fate).2

namespace Safe

variable {m : Protocol ι σ ε Call Reply α} {g : Regime σ} {i : ι} {γ : Type}
  {post : β → σ → Prop}

/-- A safe program stays safe while others go on. -/
theorem later {p : Program Call Reply β} {s s' : σ} (h : Safe m g i post p s)
    (hg : g.grows s s') : Safe m g i post p s' := by
  cases p with
  | done b => exact fun t hv ht => h t hv (g.trans hg ht)
  | call c next => exact fun t fate hv ht => h t fate hv (g.trans hg ht)

/-- A program is safe if it is so from every later valid state. -/
theorem of_later {p : Program Call Reply β} {s : σ}
    (h : ∀ s', g.valid s' → g.grows s s' → Safe m g i post p s') : Safe m g i post p s := by
  cases p with
  | done b => exact fun t hv ht => h t hv ht t hv (g.refl t)
  | call c next => exact fun t fate hv ht => h t hv ht t fate hv (g.refl t)

theorem weaken {p : Program Call Reply β} {s : σ} {post' : β → σ → Prop}
    (h : Safe m g i post p s) (hpost : ∀ b t, g.valid t → post b t → post' b t) :
    Safe m g i post' p s := by
  induction p generalizing s with
  | done b => exact fun t hv ht => hpost b t hv (h t hv ht)
  | call c next ih =>
    intro t fate hv ht
    obtain ⟨h1, h2, h3⟩ := h t fate hv ht
    exact ⟨h1, h2, ih _ h3⟩

/-- What a safe program leaves has grown from where it began. -/
theorem remember {p : Program Call Reply β} {s : σ} (h : Safe m g i post p s) :
    Safe m g i (fun b t => post b t ∧ g.grows s t) p s := by
  suffices hs : ∀ (p : Program Call Reply β) (t : σ), g.grows s t → Safe m g i post p t →
      Safe m g i (fun b t => post b t ∧ g.grows s t) p t from hs p s (g.refl s) h
  intro p
  induction p with
  | done b => exact fun t hst ht u hv hu => ⟨ht u hv hu, g.trans hst hu⟩
  | call c next ih =>
    intro t hst ht u fate hv hu
    obtain ⟨h1, h2, h3⟩ := ht u fate hv hu
    exact ⟨h1, h2, ih _ _ (g.trans hst (g.trans hu h2)) h3⟩

/-- A sequence is safe if its first part is, and its second one from every state that the first
one can leave. -/
theorem bind {p : Program Call Reply β} {f : β → Program Call Reply γ} {s : σ}
    {post' : γ → σ → Prop} (h : Safe m g i post p s)
    (hf : ∀ b s', g.valid s' → g.grows s s' → post b s' → Safe m g i post' (f b) s') :
    Safe m g i post' (p.bind f) s := by
  induction p generalizing s with
  | done b =>
    exact of_later fun s' hv hs => hf b s' hv hs (h s' hv hs)
  | call c next ih =>
    intro t fate hv ht
    obtain ⟨h1, h2, h3⟩ := h t fate hv ht
    refine ⟨h1, h2, ih _ h3 fun b s' hv' hs' => hf b s' hv' ?_⟩
    exact g.trans ht (g.trans h2 hs')

/-- What is promised of a result is promised for good. -/
theorem lasting {p : Program Call Reply β} {s : σ} (h : Safe m g i post p s) :
    Safe m g i (fun b t => ∀ u, g.valid u → g.grows t u → post b u) p s := by
  induction p generalizing s with
  | done b => exact fun t _ ht u hv hu => h u hv (g.trans ht hu)
  | call c next ih =>
    intro t fate hv ht
    obtain ⟨h1, h2, h3⟩ := h t fate hv ht
    exact ⟨h1, h2, ih _ h3⟩

/-- What is safe in two regards is safe in both together. -/
theorem both {p : Program Call Reply β} {s : σ} {k : Regime σ} {post' : β → σ → Prop}
    (h : Safe m g i post p s) (h' : Safe m k i post' p s) :
    Safe m (g.both k) i (fun b t => post b t ∧ post' b t) p s := by
  induction p generalizing s with
  | done b => exact fun t hv ht => ⟨h t hv.1 ht.1, h' t hv.2 ht.2⟩
  | call c next ih =>
    intro t fate hv ht
    obtain ⟨h1, h2, h3⟩ := h t fate hv.1 ht.1
    obtain ⟨k1, k2, k3⟩ := h' t fate hv.2 ht.2
    exact ⟨⟨h1, k1⟩, ⟨h2, k2⟩, ih _ h3 k3⟩

/-- A program is safe if calls of the kind that it makes always are. -/
theorem of_makes {P : Call → Prop}
    (hstep : ∀ c t, P c → g.valid t → g.valid (m.serve i t c).2 ∧ g.grows t (m.serve i t c).2)
    {p : Program Call Reply β} (hp : p.Makes P) {s : σ} : Safe m g i (fun _ _ => True) p s := by
  induction p generalizing s with
  | done b => exact fun _ _ _ => trivial
  | call c next ih =>
    intro t fate hv _
    obtain ⟨h1, h2⟩ := hstep c t hp.1 hv
    rcases m.settle_cases i t c fate with hs | hs
    · rw [hs]
      exact ⟨hv, g.refl t, ih _ (hp.2 _)⟩
    · rw [hs]
      exact ⟨h1, h2, ih _ (hp.2 _)⟩

/-- A safe program that runs undisturbed leaves a valid state and ends as promised. -/
theorem run {p : Program Call Reply β} {s : σ} (h : Safe m g i post p s) (hv : g.valid s) :
    g.valid (p.run (m.serve i) s).2 ∧ g.grows s (p.run (m.serve i) s).2 ∧
      post (p.run (m.serve i) s).1 (p.run (m.serve i) s).2 := by
  induction p generalizing s with
  | done b => exact ⟨hv, g.refl s, h s hv (g.refl s)⟩
  | call c next ih =>
    obtain ⟨h1, h2, h3⟩ := h s .answered hv (g.refl s)
    obtain ⟨k1, k2, k3⟩ := ih _ h3 h1
    exact ⟨k1, g.trans h2 k2, k3⟩

end Safe

/-! ### Runs of safe programs -/

namespace Protocol

variable {m : Protocol ι σ ε Call Reply α} {g : Regime σ} {post : ι → α → σ → Prop}

/-- The state is valid and what is left of each program is safe. -/
structure Sound (m : Protocol ι σ ε Call Reply α) (g : Regime σ) (post : ι → α → σ → Prop)
    (s : System ι σ Call Reply α) : Prop where
  valid : g.valid s.state
  safe : ∀ t ∈ s.tasks, Safe m g t.origin (post t.origin) t.rest s.state

/-- A turn keeps a system sound: the task that goes on is safe after its call, and the others
stay so because the state has only grown. -/
theorem advance_sound {e : Turn ι ε}
    (hm : ∀ i, e = .start i → ∀ s, g.valid s → Safe m g i (post i) (m.program i) s)
    {s : System ι σ Call Reply α} (h : Sound m g post s) :
    Sound m g post (m.advance s e) ∧ g.grows s.state (m.advance s e).state := by
  obtain ⟨i, rfl, he⟩ | ⟨n, i, c, next, fate, -, hn, he⟩ | he := m.advance_cases s e
  · rw [he]
    refine ⟨⟨h.valid, fun t ht => ?_⟩, g.refl _⟩
    rcases List.mem_append.mp ht with ht | ht
    · exact h.safe t ht
    · rw [List.mem_singleton.mp ht]
      exact hm i rfl _ h.valid
  · have hmem : (⟨i, .call c next⟩ : Task ι Call Reply α) ∈ s.tasks := List.mem_of_getElem? hn
    obtain ⟨h1, h2, h3⟩ := h.safe _ hmem s.state fate h.valid (g.refl _)
    rw [he]
    refine ⟨⟨h1, fun t ht => ?_⟩, h2⟩
    rcases List.mem_or_eq_of_mem_set ht with ht | rfl
    · exact (h.safe t ht).later h2
    · exact h3
  · rw [he]
    exact ⟨h, g.refl _⟩

/-- Only programs that are started in a run have to be safe for it. -/
theorem run_sound_of_started {turns : List (Turn ι ε)}
    (hm : ∀ i, .start i ∈ turns → ∀ s, g.valid s → Safe m g i (post i) (m.program i) s)
    {s : System ι σ Call Reply α} (h : Sound m g post s) :
    Sound m g post (m.run s turns) ∧ g.grows s.state (m.run s turns).state := by
  induction turns generalizing s with
  | nil => exact ⟨h, g.refl _⟩
  | cons e turns ih =>
    obtain ⟨h1, h2⟩ := advance_sound (fun i he => hm i (he ▸ List.mem_cons_self)) h
    obtain ⟨k1, k2⟩ := ih (fun i hi => hm i (List.mem_cons_of_mem e hi)) h1
    exact ⟨k1, g.trans h2 k2⟩

/-- **Programs that are safe by themselves are safe together**: in every run the state stays valid
and only grows, and what is promised of a result holds from the end of its program on. -/
theorem run_sound (hm : ∀ i s, g.valid s → Safe m g i (post i) (m.program i) s)
    {s : System ι σ Call Reply α} (h : Sound m g post s) (turns : List (Turn ι ε)) :
    Sound m g post (m.run s turns) ∧ g.grows s.state (m.run s turns).state :=
  run_sound_of_started (fun i _ => hm i) h

/-- What every call keeps that lets the state grow, every run of safe programs keeps. -/
theorem run_keeps {Q : σ → Prop} (hm : ∀ i s, g.valid s → Safe m g i (post i) (m.program i) s)
    (hstep : ∀ i t c, g.grows t (m.serve i t c).2 → Q t → Q (m.serve i t c).2)
    {s : System ι σ Call Reply α} (h : Sound m g post s) (hQ : Q s.state)
    (turns : List (Turn ι ε)) : Q (m.run s turns).state := by
  induction turns generalizing s with
  | nil => exact hQ
  | cons e turns ih =>
    obtain ⟨hsound, hgrows⟩ := advance_sound (e := e) (fun i _ => hm i) h
    refine ih hsound ?_
    obtain ⟨i, -, he⟩ | ⟨n, i, c, next, fate, -, -, he⟩ | he := m.advance_cases s e
    · rw [he]
      exact hQ
    · rw [he] at hgrows ⊢
      simp only at hgrows ⊢
      rcases m.settle_cases i s.state c fate with hs | hs
      · rw [hs]
        exact hQ
      · rw [hs] at hgrows ⊢
        exact hstep i s.state c hgrows hQ
    · rw [he]
      exact hQ

/-- A system in which no program has been started is sound. -/
theorem sound_idle {s : σ} (hv : g.valid s) : Sound m g post ⟨s, []⟩ :=
  ⟨hv, fun _ ht => absurd ht List.not_mem_nil⟩

/-- In a sound system the result of a program that is over is as promised. -/
theorem Sound.result {s : System ι σ Call Reply α} (h : Sound m g post s)
    {t : Task ι Call Reply α} (ht : t ∈ s.tasks) {a : α} (ha : t.rest = .done a) :
    post t.origin a s.state := by
  have hs := h.safe t ht
  rw [ha] at hs
  exact hs s.state h.valid (g.refl _)

end Protocol

end Depot
