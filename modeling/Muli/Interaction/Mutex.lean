/-
**Data behind a lock.**

Threads share a state; part of it, the data, is only changed by the thread that holds a lock. What
such a thread has learned of the data stays true while it holds the lock, so the body of a critical
section is reasoned about as if its thread were alone.

* `Lock` — a lock of a handler: which answers grant it, which operations release it, and what is
  known of the states and of the decisions of the environment.
* `Lock.protocol` — its phases: a thread is outside, or inside with what it knows of the data.
  Inside it may only change the data from a state with the invariant to such a state, along `step`.
* `Lock.Inside` — a triple for programs inside, with rules for calls (`Inside.perform`), sequences
  (`Inside.bind`) and programs that leave the data alone (`Inside.frame`). `Lock.Yields` is the same
  for programs that may stop with an error, after which nothing needs to be known.
* `Pool.behind_lock` — **along every schedule of threads that obey the protocol the data has the
  invariant, and every operation leaves it or changes it along `step`.**
-/

import Muli.Interaction.Phases

namespace Interaction

variable {I : Interface} {S E D α β : Type} {H : Handler I S E}

structure Lock (H : Handler I S E) (D : Type) where
  data : S → D
  held : S → Bool
  grants : (op : I.Op) → I.Answer op → Bool
  releases : I.Op → Bool
  calm : S → Prop
  allowed : I.Op → E → Prop
  calm_step : ∀ e op s, calm s → allowed op e → calm (H e op s).2
  held_step : ∀ e op s, held (H e op s).2 =
    (grants op (H e op s).1 || (!releases op && held s))
  free : ∀ e op s, grants op (H e op s).1 = true → held s = false

namespace Lock

variable (L : Lock H D) (inv : D → Prop) (step : D → D → Prop)

/-- What is known of the data after an operation with this answer. -/
def after (known : D → Prop) (op : I.Op) (answer : I.Answer op) (d : D) : Prop :=
  ∃ e s, L.calm s ∧ L.allowed op e ∧ inv (L.data s) ∧ known (L.data s) ∧
    (H e op s).1 = answer ∧ L.data (H e op s).2 = d

def Leaves (op : I.Op) : Prop :=
  ∀ e s, L.calm s → L.allowed op e → L.data (H e op s).2 = L.data s

/-- The operation leaves the data alone, and neither takes nor gives the lock. -/
def Passive (op : I.Op) : Prop :=
  (∀ answer, L.grants op answer = false) ∧ L.releases op = false ∧ L.Leaves op

/-- From data that is known so, the operation keeps the invariant and goes along `step`. -/
def Advances (known : D → Prop) (op : I.Op) : Prop :=
  ∀ e s, L.calm s → L.allowed op e → inv (L.data s) → known (L.data s) →
    inv (L.data (H e op s).2) ∧ step (L.data s) (L.data (H e op s).2)

/-- **The protocol of a thread**: outside it leaves the data alone, inside it knows something of it.
-/
def protocol : Protocol I (Option (D → Prop)) where
  expects _ _ := True
  permits
    | none, op => L.releases op = false ∧ L.Leaves op
    | some known, op => (∀ answer, L.grants op answer = false) ∧ L.Advances inv step known op
  next
    | none, op, answer => if L.grants op answer then some fun _ => True else none
    | some known, op, answer => if L.releases op then none else some (L.after inv known op answer)

/-! ### The invariant -/

/-- One thread at most is inside, and what it knows holds. -/
structure Guards (phases : ℕ → Option (D → Prop)) (s : S) : Prop where
  calm : L.calm s
  inv : inv (L.data s)
  known : ∀ i known, phases i = some known → L.held s = true ∧ known (L.data s)
  single : ∀ i j known known', phases i = some known → phases j = some known' → i = j

variable {L inv step} {phases : ℕ → Option (D → Prop)} {op : I.Op}

theorem phase_advance {known : D → Prop}
    (isPhase : (L.protocol inv step).advance phases i op answer j = some known) :
    j = i ∧ (L.protocol inv step).next (phases i) op answer = some known ∨ j ≠ i ∧
    phases j = some known := by
  by_cases own : j = i
  · subst own
    rw [Protocol.advance_self] at isPhase
    exact .inl ⟨rfl, isPhase⟩
  · rw [Protocol.advance_of_ne own] at isPhase
    exact .inr ⟨own, isPhase⟩

/-- **A permitted operation keeps the lock and what is known behind it.** -/
theorem guards_step {s : S} (guards : L.Guards inv phases s) {e : E}
    (permitted : (L.protocol inv step).permits (phases i) op) (isAllowed : L.allowed op e) :
    L.Guards inv ((L.protocol inv step).advance phases i op (H e op s).1) (H e op s).2 := by
  have calm := L.calm_step e op s guards.calm isAllowed
  have heldAfter := L.held_step e op s
  cases isPhase : phases i with
  | none =>
    rw [isPhase] at permitted
    obtain ⟨notReleased, leaves⟩ := permitted
    have same := leaves e s guards.calm isAllowed
    have stillHeld : L.held s = true → L.held (H e op s).2 = true := by simp_all
    have own : ∀ known, (L.protocol inv step).next (phases i) op (H e op s).1 = some known →
        L.grants op (H e op s).1 = true ∧ known = fun _ => True := by
      intro known isNext
      rw [isPhase] at isNext
      change (if L.grants op (H e op s).1 then some fun _ => True else none) = some known at isNext
      split_ifs at isNext with granted
      exact ⟨granted, (Option.some.inj isNext).symm⟩
    refine ⟨calm, same ▸ guards.inv, ?_, ?_⟩
    · intro j known isKnown
      rcases phase_advance isKnown with ⟨-, isNext⟩ | ⟨-, before⟩
      · simp_all
      · obtain ⟨held, holds⟩ := guards.known j known before
        exact ⟨stillHeld held, same ▸ holds⟩
    · -- the lock is granted only while no thread is inside
      have alone : ∀ j known known', phases j = some known →
          (L.protocol inv step).next (phases i) op (H e op s).1 = some known' → False := by
        intro j known known' before isNext
        have free := L.free e op s (own known' isNext).1
        rw [(guards.known j known before).1] at free
        cases free
      intro j k known known' isKnown isKnown'
      rcases phase_advance isKnown with ⟨rfl, isNext⟩ | ⟨-, before⟩ <;>
        rcases phase_advance isKnown' with ⟨isK, isNext'⟩ | ⟨-, before'⟩
      · exact isK.symm
      · exact (alone k known' known before' isNext).elim
      · exact (alone j known known' before isNext').elim
      · exact guards.single j k known known' before before'
  | some known =>
    rw [isPhase] at permitted
    obtain ⟨notGranted, advances⟩ := permitted
    obtain ⟨held, holds⟩ := guards.known i known isPhase
    have outside : ∀ j known', j ≠ i → phases j ≠ some known' := fun j known' other isKnown =>
      other (guards.single j i known' known isKnown isPhase)
    refine ⟨calm, (advances e s guards.calm isAllowed guards.inv holds).1, ?_, ?_⟩
    · intro j known' isKnown
      rcases phase_advance isKnown with ⟨-, isNext⟩ | ⟨other, before⟩
      · rw [isPhase] at isNext
        change (if L.releases op then none else some (L.after inv known op (H e op s).1)) =
          some known' at isNext
        split_ifs at isNext with released
        cases isNext
        refine ⟨?_, e, s, guards.calm, isAllowed, guards.inv, holds, rfl, rfl⟩
        have notReleased : L.releases op = false := (Bool.not_eq_true _).mp released
        rw [heldAfter, held, notGranted, notReleased]
        rfl
      · exact absurd before (outside j known' other)
    · intro j k known' known'' isKnown isKnown'
      rcases phase_advance isKnown with ⟨rfl, -⟩ | ⟨other, before⟩
      · rcases phase_advance isKnown' with ⟨isK, -⟩ | ⟨other, before'⟩
        · exact isK.symm
        · exact absurd before' (outside k known'' other)
      · exact absurd before (outside j known' other)

/-! ### Programs inside -/

variable (L inv step) in
/-- **Inside, the program turns data that is known so into data with `post`.** -/
def Inside (p : Prog I α) (post : α → D → Prop) (known : D → Prop) : Prop :=
  p.Obeys (L.protocol inv step)
    (fun value phase => ∃ known', phase = some known' ∧ ∀ d, inv d → known' d → post value d)
    (some known)

namespace Inside

variable {post post' : α → D → Prop} {known known' : D → Prop}

theorem pure (holds : ∀ d, inv d → known d → post value d) :
    L.Inside inv step (Pure.pure value : Prog I α) post known := ⟨known, rfl, holds⟩

variable {p : Prog I α}

theorem mono (inside : L.Inside inv step p post known)
    (weaker : ∀ value d, post value d → post' value d) : L.Inside inv step p post' known := by
  refine Prog.Obeys.mono inside fun value phase => ?_
  rintro ⟨known', isPhase, holds⟩
  exact ⟨known', isPhase, fun d isInv isKnown => weaker value d (holds d isInv isKnown)⟩

theorem strengthen (inside : L.Inside inv step p post known)
    (stronger : ∀ d, inv d → known' d → known d) : L.Inside inv step p post known' := by
  induction p generalizing known known' with
  | pure value =>
    obtain ⟨known'', isPhase, holds⟩ := inside
    cases isPhase
    exact ⟨known', rfl, fun d isInv isKnown => holds d isInv (stronger d isInv isKnown)⟩
  | call op next ih =>
    obtain ⟨⟨notGranted, advances⟩, later⟩ := inside
    refine ⟨⟨notGranted, fun e s calm isAllowed isInv isKnown =>
      advances e s calm isAllowed isInv (stronger _ isInv isKnown)⟩, fun answer _ => ?_⟩
    have inside := later answer trivial
    change Prog.Obeys _ _ _ (if L.releases op then none else some _) at inside
    show Prog.Obeys _ _ _ (if L.releases op then none else some _)
    split_ifs at inside ⊢ with released
    · exact inside
    · refine ih answer inside ?_
      rintro d - ⟨e, s, calm, isAllowed, isInv, isKnown, isAnswer, isData⟩
      exact ⟨e, s, calm, isAllowed, isInv, stronger _ isInv isKnown, isAnswer, isData⟩

theorem bind {f : α → Prog I β} {post' : β → D → Prop} (first : L.Inside inv step p post known)
    (second : ∀ value, L.Inside inv step (f value) post' (post value)) :
    L.Inside inv step (p >>= f) post' known := by
  refine Prog.obeys_bind.mpr (.mono first fun value phase => ?_)
  rintro ⟨known', rfl, holds⟩
  exact (second value).strengthen holds

/-- **One operation**, and what is known after each of its answers. -/
theorem perform {post : I.Answer op → D → Prop}
    (notGranted : ∀ answer, L.grants op answer = false) (notReleased : L.releases op = false)
    (each : ∀ e s, L.calm s → L.allowed op e → inv (L.data s) → known (L.data s) →
      inv (L.data (H e op s).2) ∧ step (L.data s) (L.data (H e op s).2) ∧
        post (H e op s).1 (L.data (H e op s).2)) : L.Inside inv step (Prog.perform op) post
        known := by
  refine ⟨⟨notGranted, fun e s calm isAllowed isInv isKnown => ?_⟩, fun answer _ => ?_⟩
  · simp [*]
  · show Prog.Obeys _ (.pure answer) _ (if L.releases op then none else some _)
    rw [notReleased]
    refine ⟨_, rfl, ?_⟩
    rintro d - ⟨e, s, calm, isAllowed, isInv, isKnown, rfl, rfl⟩
    exact (each e s calm isAllowed isInv isKnown).2.2

/-- **A program that leaves the data alone** keeps what is known. -/
theorem frame (refl : ∀ d, step d d) (only : p.CallsOnly L.Passive) :
    L.Inside inv step p (fun _ => known) known := by
  have obeys := only () trivial
  clear only
  induction p with
  | pure value => exact pure fun _ _ => id
  | call op next ih =>
    obtain ⟨⟨notGranted, notReleased, leaves⟩, later⟩ := obeys
    have first : L.Inside inv step (.perform op) (fun _ => known) known := by
      refine perform notGranted notReleased fun e s calm isAllowed isInv isKnown => ?_
      rw [leaves e s calm isAllowed]
      exact ⟨isInv, refl _, isKnown⟩
    exact first.bind fun answer => ih answer (later answer trivial)

end Inside

variable (L inv step) in
/-- **Inside, the program turns data that is known so into data with `post`, if it returns a
value.** -/
def Yields {ε : Type} (p : ExceptT ε (Prog I) α) (post : α → D → Prop) (known : D → Prop) : Prop :=
  L.Inside inv step p.run (fun outcome d => ∀ value, outcome = .ok value → post value d) known

namespace Yields

variable {ε : Type} {post : α → D → Prop} {known known' : D → Prop}

theorem pure (holds : ∀ d, inv d → known d → post value d) :
    L.Yields inv step (Pure.pure value : ExceptT ε (Prog I) α) post known := by
  refine Inside.pure fun d isInv isKnown => ?_
  rintro _ ⟨⟩
  exact holds d isInv isKnown

theorem throw : L.Yields inv step (MonadExcept.throw error : ExceptT ε (Prog I) α) post known := by
  refine Inside.pure fun d _ _ => ?_
  rintro _ ⟨⟩

variable {p : ExceptT ε (Prog I) α}

theorem strengthen (yields : L.Yields inv step p post known)
    (stronger : ∀ d, inv d → known' d → known d) : L.Yields inv step p post known' :=
  Inside.strengthen yields stronger

theorem bind {f : α → ExceptT ε (Prog I) β} {post' : β → D → Prop}
    (first : L.Yields inv step p post known)
    (second : ∀ value, L.Yields inv step (f value) post' (post value)) :
    L.Yields inv step (p >>= f) post' known := by
  refine Inside.bind first fun outcome => ?_
  cases outcome with
  | ok value => exact (second value).strengthen fun d _ holds => holds value rfl
  | error error => exact throw

theorem lift {p : Prog I α} (inside : L.Inside inv step p post known) :
    L.Yields inv step (ExceptT.lift p : ExceptT ε (Prog I) α) post known := by
  exact inside.bind fun value => pure fun d _ holds => holds

theorem adapt {ε' : Type} (f : ε → ε') (yields : L.Yields inv step p post known) :
    L.Yields inv step (p.adapt f) post known := by
  refine Inside.bind yields fun outcome => ?_
  cases outcome with
  | ok value => exact pure fun d _ holds => holds value rfl
  | error error => exact throw

theorem frame (refl : ∀ d, step d d) (only : p.run.CallsOnly L.Passive) :
    L.Yields inv step p (fun _ => known) known :=
  (Inside.frame refl only).mono fun _ _ holds _ _ => holds

end Yields

/-! ### Threads -/

theorem outside {p : Prog I α} (only : p.CallsOnly L.Passive) :
    p.Within (L.protocol inv step) fun phase => phase = none := by
  rintro _ rfl
  have obeys := only () trivial
  clear only
  induction p with
  | pure value => rfl
  | call op next ih =>
    obtain ⟨⟨notGranted, notReleased, leaves⟩, later⟩ := obeys
    refine ⟨⟨notReleased, leaves⟩, fun answer _ => ?_⟩
    show Prog.Obeys _ _ _ (if L.grants op answer then some _ else none)
    rw [notGranted]
    exact ih answer (later answer trivial)

/-- **A critical section**: the body and the release, whatever the body returns. -/
theorem section_adheres {ε : Type} {body : ExceptT ε (Prog I) α} (refl : ∀ d, step d d)
    (inside : L.Yields inv step body (fun _ _ => True) fun _ => True)
    (notGranted : ∀ answer, L.grants unlock answer = false) (leaves : L.Leaves unlock) :
    Adheres (L.protocol inv step) (ExceptT.lift body.run >>= fun outcome =>
        ExceptT.lift (Prog.perform unlock) >>= fun _ =>
      (ExceptT.mk (Pure.pure outcome) : ExceptT ε _ α))
      (fun _ _ => True) (some fun _ => True) := by
  refine .andThen (.lift inside) ?_
  rintro outcome _ ⟨known, rfl, -⟩
  refine .call ⟨notGranted, fun e s calm isAllowed isInv _ => ?_⟩ fun _ _ _ _ => trivial
  rw [leaves e s calm isAllowed]
  exact ⟨isInv, refl _⟩

end Lock

/-- **Threads that obey the protocol keep the invariant of the data behind the lock.** -/
theorem Pool.behind_lock {L : Lock H D} {inv : D → Prop} {step : D → D → Prop}
    (refl : ∀ d, step d d) {pool : Pool I S} (calm : L.calm pool.shared)
    (start : inv (L.data pool.shared))
    (obey : ∀ p ∈ pool.threads, p.Obeys (L.protocol inv step) (fun _ _ => True) none)
    (allowed : ∀ event ∈ pool.trace H schedule, L.allowed event.2.op event.2.decision) :
    ∀ event ∈ pool.trace H schedule, inv (L.data event.2.before) ∧ inv (L.data (event.2.after H)) ∧
      step (L.data event.2.before) (L.data (event.2.after H)) := by
  have guarded : L.Guards inv (fun _ => none) pool.shared :=
    ⟨calm, start, (fun _ _ isKnown => by cases isKnown), (fun _ _ _ _ isKnown => by cases isKnown)⟩
  have guardedAt : ∀ event ∈ pool.trace H schedule, ∃ phases, L.Guards inv phases event.2.before ∧
      (L.protocol inv step).permits (phases event.1) event.2.op := by
    refine Pool.phases (fun _ event => L.allowed event.op event.decision) (fun _ _ _ => trivial) ?_
      (fun i p isThread => obey p (List.mem_of_getElem? isThread)) guarded allowed
    intro phases s i e op guards permitted isAllowed
    exact L.guards_step guards permitted isAllowed
  intro event mem
  have isAllowed := allowed event mem
  obtain ⟨phases, guards, permitted⟩ := guardedAt event mem
  refine ⟨guards.inv, ?_⟩
  show inv (L.data (H _ event.2.op _).2) ∧ step _ (L.data (H _ event.2.op _).2)
  cases isPhase : phases event.1 with
  | none =>
    rw [isPhase] at permitted
    rw [permitted.2 _ _ guards.calm isAllowed]
    exact ⟨guards.inv, refl _⟩
  | some known =>
    rw [isPhase] at permitted
    exact permitted.2 _ _ guards.calm isAllowed guards.inv (guards.known _ known isPhase).2

end Interaction
