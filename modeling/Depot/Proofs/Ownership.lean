import Depot.Proofs.Interleaving

/-!
# Programs that own a part of the state

Programs that go on side by side over one state, where each of them has a part of the state to
itself, such as a file under a name that is used once. What may happen between two calls of a
program then depends on whose program it is: the others leave its part alone, while it does with
that part what it likes. A property of all runs is reduced to one of a program by itself, as it is
where a state may change in one way for all (`Safe`).

Headlines
* **`Protocol.run_orderly`**: programs that respect each other's parts find them, in every run, as
  they left them, and each result is as promised from then on.
* **`Respects.bind`**, **`Respects.bind_action`**: a sequence from its parts, also if they may fail;
  **`Respects.run`**: a program by itself.
* **`Protocol.origins_run`**, **`Protocol.mem_run_of_done`**: which programs there are after a run.
-/

namespace Depot

/-- The origins of the programs that turns start, in their order. -/
def Turn.origins {ι ε : Type} : List (Turn ι ε) → List ι
  | [] => []
  | .start i :: turns => i :: origins turns
  | .call _ _ :: turns => origins turns

theorem Turn.origins_append {ι ε : Type} (turns turns' : List (Turn ι ε)) :
    Turn.origins (turns ++ turns') = Turn.origins turns ++ Turn.origins turns' := by
  induction turns with
  | nil => rfl
  | cons e turns ih =>
    cases e with
    | start i => exact congrArg (i :: ·) ih
    | call n fate => exact ih

/-- The first turns start the first programs. -/
theorem Turn.origins_take_isPrefix {ι ε : Type} (turns : List (Turn ι ε)) (k : Nat) :
    Turn.origins (turns.take k) <+: Turn.origins turns := by
  conv => rhs; rw [← List.take_append_drop k turns, Turn.origins_append]
  exact List.prefix_append _ _

theorem Task.result?_eq_some_iff {ι Call α : Type} {Reply : Call → Type}
    {t : Task ι Call Reply α} {a : α} : t.result? = some a ↔ t.rest = .done a := by
  unfold Task.result?
  cases t.rest <;> simp

/-- What has to hold of every state, and which part of it belongs to an origin. -/
structure Estate (ι σ : Type) where
  /-- What holds of every state. -/
  valid : σ → Prop
  /-- That the second state may come after the first one by what others than the origin do. -/
  spared : ι → σ → σ → Prop
  /-- That two origins own different parts. -/
  apart : ι → ι → Prop
  /-- A state may stay. -/
  refl : ∀ i s, spared i s s
  /-- What others do adds up. -/
  trans : ∀ {i s t u}, spared i s t → spared i t u → spared i s u
  /-- Neither of the two comes first. -/
  symm : ∀ {i j}, apart i j → apart j i

/-- What others than an origin leave as it is. -/
def Estate.Stable {ι σ : Type} (g : Estate ι σ) (i : ι) (P : σ → Prop) : Prop :=
  ∀ s t, g.spared i s t → P s → P t

theorem Estate.Stable.and {ι σ : Type} {g : Estate ι σ} {i : ι} {P Q : σ → Prop}
    (hP : g.Stable i P) (hQ : g.Stable i Q) : g.Stable i fun s => P s ∧ Q s :=
  fun s t ht h => ⟨hP s t ht h.1, hQ s t ht h.2⟩

theorem Estate.Stable.const {ι σ : Type} (g : Estate ι σ) (i : ι) (P : Prop) :
    g.Stable i fun _ => P := fun _ _ _ h => h

variable {ι σ ε Call : Type} {Reply : Call → Type} {α β γ : Type}

/-! ### Programs that respect the parts of others -/

/-- From the state on, whatever others do to it before each call and whatever becomes of the call,
the program makes only calls that keep the state valid and spare the parts of others, and what
holds of its result goes on holding. -/
def Respects (m : Protocol ι σ ε Call Reply α) (g : Estate ι σ) (i : ι) (post : β → σ → Prop) :
    Program Call Reply β → σ → Prop
  | .done b, s => ∀ s', g.valid s' → g.spared i s s' → post b s'
  | .call c next, s => ∀ s' fate, g.valid s' → g.spared i s s' →
    g.valid (m.settle i s' c fate).2 ∧
      (∀ j, g.apart i j → g.spared j s' (m.settle i s' c fate).2) ∧
      Respects m g i post (next (m.settle i s' c fate).1) (m.settle i s' c fate).2

namespace Respects

variable {m : Protocol ι σ ε Call Reply α} {g : Estate ι σ} {i : ι} {post : β → σ → Prop}

/-- What is respected goes on being so while others go on. -/
theorem later {p : Program Call Reply β} {s s' : σ} (h : Respects m g i post p s)
    (hs : g.spared i s s') : Respects m g i post p s' := by
  cases p with
  | done b => exact fun t hv ht => h t hv (g.trans hs ht)
  | call c next => exact fun t fate hv ht => h t fate hv (g.trans hs ht)

/-- It is enough to begin at each later valid state. -/
theorem of_later {p : Program Call Reply β} {s : σ}
    (h : ∀ s', g.valid s' → g.spared i s s' → Respects m g i post p s') :
    Respects m g i post p s := by
  cases p with
  | done b => exact fun t hv ht => h t hv ht t hv (g.refl i t)
  | call c next => exact fun t fate hv ht => h t hv ht t fate hv (g.refl i t)

theorem weaken {p : Program Call Reply β} {s : σ} {post' : β → σ → Prop}
    (h : Respects m g i post p s) (hpost : ∀ b t, post b t → post' b t) :
    Respects m g i post' p s := by
  induction p generalizing s with
  | done b => exact fun t hv ht => hpost b t (h t hv ht)
  | call c next ih =>
    intro t fate hv ht
    obtain ⟨h1, h2, h3⟩ := h t fate hv ht
    exact ⟨h1, h2, ih _ h3⟩

/-- What others leave as it is holds of a result for good. -/
theorem of_stable {b : β} {s : σ} (hpost : g.Stable i (post b)) (h : post b s) :
    Respects m g i post (.done b) s :=
  fun t _ ht => hpost s t ht h

/-- A single call is judged in each state that others can leave. -/
theorem perform {c : Call} {pre : σ → Prop} {post : Reply c → σ → Prop} {s : σ}
    (hpre : g.Stable i pre) (hpost : ∀ r, g.Stable i (post r))
    (hstep : ∀ t fate, g.valid t → pre t → g.valid (m.settle i t c fate).2 ∧
      (∀ j, g.apart i j → g.spared j t (m.settle i t c fate).2) ∧
      post (m.settle i t c fate).1 (m.settle i t c fate).2)
    (h : pre s) : Respects m g i post (Program.perform c) s := by
  intro t fate hv ht
  obtain ⟨h1, h2, h3⟩ := hstep t fate hv (hpre s t ht h)
  exact ⟨h1, h2, of_stable (hpost _) h3⟩

/-- What is promised of a result is promised for good. -/
theorem lasting {p : Program Call Reply β} {s : σ} (h : Respects m g i post p s) :
    Respects m g i (fun b t => ∀ u, g.valid u → g.spared i t u → post b u) p s := by
  induction p generalizing s with
  | done b => exact fun t _ ht u hv hu => h u hv (g.trans ht hu)
  | call c next ih =>
    intro t fate hv ht
    obtain ⟨h1, h2, h3⟩ := h t fate hv ht
    exact ⟨h1, h2, ih _ h3⟩

/-- A program that runs undisturbed leaves a valid state and ends as promised. -/
theorem run {p : Program Call Reply β} {s : σ} (h : Respects m g i post p s) (hv : g.valid s) :
    g.valid (p.run (m.serve i) s).2 ∧ post (p.run (m.serve i) s).1 (p.run (m.serve i) s).2 := by
  induction p generalizing s with
  | done b => exact ⟨hv, h s hv (g.refl i s)⟩
  | call c next ih =>
    obtain ⟨h1, -, h3⟩ := h s .answered hv (g.refl i s)
    exact ih _ h3 h1

/-- **A sequence respects the parts of others if its own parts do**, the second one from every state
that the first one can leave. -/
theorem bind {p : Program Call Reply β} {f : β → Program Call Reply γ} {s : σ}
    {post' : γ → σ → Prop} (h : Respects m g i post p s)
    (hf : ∀ b s', g.valid s' → post b s' → Respects m g i post' (f b) s') :
    Respects m g i post' (p.bind f) s := by
  induction p generalizing s with
  | done b => exact of_later fun s' hv hs => hf b s' hv (h s' hv hs)
  | call c next ih =>
    intro t fate hv ht
    obtain ⟨h1, h2, h3⟩ := h t fate hv ht
    exact ⟨h1, h2, ih _ h3⟩

/-- **So does a sequence that may fail**, where what is promised of a failure of its first part is
promised of its own. -/
theorem bind_action {err : Type} {x : ExceptT err (Program Call Reply) β}
    {f : β → ExceptT err (Program Call Reply) γ} {s : σ} {post : Except err β → σ → Prop}
    {post' : Except err γ → σ → Prop} (h : Respects m g i post x.run s)
    (herror : ∀ e t, post (.error e) t → post' (.error e) t)
    (hf : ∀ b t, g.valid t → post (.ok b) t → Respects m g i post' (f b).run t) :
    Respects m g i post' (x >>= f).run s := by
  refine bind h.lasting fun r t hv hr => ?_
  cases r with
  | ok b => exact hf b t hv (hr t hv (g.refl i t))
  | error e => exact fun u hv' hu => herror e u (hr u hv' hu)

end Respects

/-! ### Runs -/

namespace Protocol

variable {m : Protocol ι σ ε Call Reply α} {g : Estate ι σ} {post : ι → α → σ → Prop}

/-- A call of a program leaves every program its origin. -/
theorem origins_set {tasks : List (Task ι Call Reply α)} {n : Nat} {i : ι}
    {p : Program Call Reply α} (hn : tasks[n]? = some ⟨i, p⟩) (q : Program Call Reply α) :
    (tasks.set n ⟨i, q⟩).map Task.origin = tasks.map Task.origin := by
  have horigin : (tasks.map Task.origin)[n]? = some i := by
    rw [List.getElem?_map, hn]
    rfl
  rw [List.map_set]
  obtain ⟨hlt, horigin⟩ := List.getElem?_eq_some_iff.mp horigin
  show (tasks.map Task.origin).set n i = _
  rw [← horigin, List.set_getElem_self]

/-- **The programs of a run** are those that were there and those that are started. -/
theorem origins_run (s : System ι σ Call Reply α) (turns : List (Turn ι ε)) :
    (m.run s turns).tasks.map Task.origin = s.tasks.map Task.origin ++ Turn.origins turns := by
  induction turns generalizing s with
  | nil => exact (List.append_nil _).symm
  | cons e turns ih =>
    refine (ih (m.advance s e)).trans ?_
    cases e with
    | start i =>
      show (s.tasks ++ [(⟨i, m.program i⟩ : Task ι Call Reply α)]).map Task.origin ++ _ = _
      rw [List.map_append, List.append_assoc]
      rfl
    | call n fate =>
      show _ = s.tasks.map Task.origin ++ Turn.origins turns
      congr 1
      obtain ⟨i, he, -⟩ | ⟨n, i, c, next, fate, -, hn, he⟩ | he := m.advance_cases s (.call n fate)
      · exact absurd he (by simp)
      · rw [he]
        exact origins_set hn _
      · rw [he]

/-- **A program that is over stays so.** -/
theorem mem_run_of_done {s : System ι σ Call Reply α} {t : Task ι Call Reply α}
    (ht : t ∈ s.tasks) {a : α} (ha : t.rest = .done a) (turns : List (Turn ι ε)) :
    t ∈ (m.run s turns).tasks := by
  induction turns generalizing s with
  | nil => exact ht
  | cons e turns ih =>
    refine ih ?_
    obtain ⟨i, -, he⟩ | ⟨n, i, c, next, fate, -, hn, he⟩ | he := m.advance_cases s e
    · rw [he]
      exact List.mem_append_left _ ht
    · rw [he]
      obtain ⟨k, hk⟩ := List.mem_iff_getElem?.mp ht
      have hne : n ≠ k := by
        rintro rfl
        obtain rfl := Option.some.inj (hn.symm.trans hk)
        exact absurd ha (by simp)
      refine List.mem_of_getElem? (i := k) ?_
      rw [List.getElem?_set_ne hne]
      exact hk
    · rw [he]
      exact ht

/-- What is reached later is reached from what is reached before. -/
theorem reached_of_le {s : σ} {turns : List (Turn ι ε)} {k k' : Nat} (h : k ≤ k') :
    m.reached s turns k' = m.run (m.reached s turns k) ((turns.drop k).take (k' - k)) := by
  unfold reached run
  rw [← List.foldl_append, ← List.take_add, Nat.add_sub_cancel' h]

/-- The state is valid, what is left of each program and each one that is still to be started
respects the parts of others, and no two of them share one. -/
structure Orderly (m : Protocol ι σ ε Call Reply α) (g : Estate ι σ) (post : ι → α → σ → Prop)
    (pending : List ι) (s : System ι σ Call Reply α) : Prop where
  valid : g.valid s.state
  respects : ∀ t ∈ s.tasks, Respects m g t.origin (post t.origin) t.rest s.state
  fresh : ∀ i ∈ pending, Respects m g i (post i) (m.program i) s.state
  apart : (s.tasks.map Task.origin ++ pending).Pairwise g.apart

theorem apart_of_ne {l : List ι} (h : l.Pairwise g.apart) {n k : Nat} {i j : ι}
    (hn : l[n]? = some i) (hk : l[k]? = some j) (hne : n ≠ k) : g.apart i j := by
  obtain ⟨hn', rfl⟩ := List.getElem?_eq_some_iff.mp hn
  obtain ⟨hk', rfl⟩ := List.getElem?_eq_some_iff.mp hk
  rcases Nat.lt_or_gt_of_ne hne with hlt | hgt
  · exact List.pairwise_iff_getElem.mp h n k hn' hk' hlt
  · exact g.symm (List.pairwise_iff_getElem.mp h k n hk' hn' hgt)

/-- A turn keeps a system orderly: the program that goes on has spared the parts of the others, of
those that are still to be started as well. -/
theorem advance_orderly {e : Turn ι ε} {turns : List (Turn ι ε)} {s : System ι σ Call Reply α}
    (h : Orderly m g post (Turn.origins (e :: turns)) s) :
    Orderly m g post (Turn.origins turns) (m.advance s e) := by
  cases e with
  | start i =>
    refine ⟨h.valid, fun t ht => ?_, fun j hj => h.fresh j (List.mem_cons_of_mem i hj), ?_⟩
    · rcases List.mem_append.mp ht with ht | ht
      · exact h.respects t ht
      · rw [List.mem_singleton.mp ht]
        exact h.fresh i List.mem_cons_self
    · show ((s.tasks ++ [(⟨i, m.program i⟩ : Task ι Call Reply α)]).map Task.origin ++ _).Pairwise
        g.apart
      rw [List.map_append, List.append_assoc]
      exact h.apart
  | call n fate =>
    obtain ⟨i, he, -⟩ | ⟨n, i, c, next, fate, -, hn, he⟩ | he := m.advance_cases s (.call n fate)
    · exact absurd he (by simp)
    · obtain ⟨h1, h2, h3⟩ :=
        h.respects _ (List.mem_of_getElem? hn) s.state fate h.valid (g.refl i _)
      have hi : (s.tasks.map Task.origin)[n]? = some i := by
        rw [List.getElem?_map, hn]
        rfl
      obtain ⟨hstarted, -, hcross⟩ := List.pairwise_append.mp h.apart
      rw [he]
      refine ⟨h1, fun t ht => ?_, fun j hj => ?_, ?_⟩
      · obtain ⟨k, hk⟩ := List.mem_iff_getElem?.mp ht
        by_cases hkn : n = k
        · subst hkn
          rw [List.getElem?_set_self (List.getElem?_eq_some_iff.mp hn).1] at hk
          obtain rfl := Option.some.inj hk
          exact h3
        · rw [List.getElem?_set_ne hkn] at hk
          have hj : (s.tasks.map Task.origin)[k]? = some t.origin := by
            rw [List.getElem?_map, hk]
            rfl
          exact (h.respects t (List.mem_of_getElem? hk)).later
            (h2 _ (apart_of_ne hstarted hi hj hkn))
      · exact (h.fresh j hj).later (h2 j (hcross i (List.mem_of_getElem? hi) j hj))
      · show ((s.tasks.set n ⟨i, next _⟩).map Task.origin ++ _).Pairwise g.apart
        rw [origins_set hn]
        exact h.apart
    · rw [he]
      exact h

/-- **Programs that respect each other's parts find them as they left them**: in every run the state
stays valid, and what is promised of a result holds from the end of its program on. -/
theorem run_orderly {turns : List (Turn ι ε)} {s : System ι σ Call Reply α}
    (h : Orderly m g post (Turn.origins turns) s) : Orderly m g post [] (m.run s turns) := by
  induction turns generalizing s with
  | nil => exact h
  | cons e turns ih => exact ih (advance_orderly h)

/-- In an orderly system the result of a program that is over is as promised. -/
theorem Orderly.result {pending : List ι} {s : System ι σ Call Reply α}
    (h : Orderly m g post pending s) {t : Task ι Call Reply α} (ht : t ∈ s.tasks) {a : α}
    (ha : t.rest = .done a) : post t.origin a s.state := by
  have hrest := h.respects t ht
  rw [ha] at hrest
  exact hrest s.state h.valid (g.refl _ _)

end Protocol

end Depot
