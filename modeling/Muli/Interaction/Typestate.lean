/-
**Typestate: what a program may call, phase by phase.**

A `Protocol` watches the calls of one program. In each phase it permits some calls, and a call moves
it, with the answer, to the next phase.

* `Prog.Obeys` — the program calls only what the protocol permits, for all answers the protocol
  expects; `Prog.Within` — in all phases with an invariant, which it keeps; `Prog.CallsOnly` —
  always. `Adheres` is the same for programs that may stop with an error (`ExceptT`), `Keeps` the
  case of a program that leaves the phase as it is, `Succeeds` that of one that returns a value.
* `phaseAfter` — the phase of a thread after a history; `Conforms.permits_at` — it permits the next
  call.
* `Pool.trace_conforms` — **a program that obeys a protocol alone obeys it among others**: along
  every schedule its calls, taken out of the run, follow the protocol.
-/

import Muli.Interaction.Concurrent

namespace Interaction

open List Prog Pool

variable {I : Interface} {S E Φ : Type}

/-- An automaton that watches the calls of a program. -/
structure Protocol (I : Interface) (Φ : Type) where
  expects : (op : I.Op) → I.Answer op → Prop
  permits : Φ → I.Op → Prop
  next : Φ → (op : I.Op) → I.Answer op → Φ

def Handler.Meets (H : Handler I S E) (P : Protocol I Φ) : Prop :=
  ∀ decision op s, P.expects op (H decision op s).1

/-! ### One program -/

section Programs

variable {α β : Type} (P : Protocol I Φ)

/-- **The program calls only what the protocol permits**, and returns in a phase with `post`. -/
def Prog.Obeys : Prog I α → (α → Φ → Prop) → Φ → Prop
  | .pure value, post, phase => post value phase
  | .call op next, post, phase => P.permits phase op ∧
      ∀ answer, P.expects op answer → Prog.Obeys (next answer) post (P.next phase op answer)

variable {P} {p : Prog I α} {phase : Φ} {post : β → Φ → Prop} {f : α → Prog I β}

theorem Prog.obeys_bind : (p >>= f).Obeys P post phase ↔
      p.Obeys P (fun value phase' => (f value).Obeys P post phase') phase := by
  induction p generalizing phase with
  | pure value => rfl
  | call op next ih =>
    exact and_congr_right fun _ => forall_congr' fun answer => forall_congr' fun _ => ih _

variable {op : I.Op}

theorem Prog.Obeys.call {f : I.Answer op → Prog I β} (permitted : P.permits phase op)
    (each : ∀ answer, P.expects op answer → (f answer).Obeys P post (P.next phase op answer)) :
    (perform op >>= f).Obeys P post phase := ⟨permitted, each⟩

theorem Prog.Obeys.mono {post post' : α → Φ → Prop}
    (obeys : p.Obeys P post phase) (weaker : ∀ value phase', post value phase' →
    post' value phase') : p.Obeys P post' phase := by
  induction p generalizing phase with
  | pure value => exact weaker value phase obeys
  | call op next ih =>
    exact ⟨obeys.1, fun answer expected => ih answer (obeys.2 answer expected)⟩

theorem Prog.Obeys.translate {J : Interface} {Q : Protocol J Φ}
    {f : (op : J.Op) → Prog I (J.Answer op)} {p : Prog J α} {post : α → Φ → Prop}
    (obeys : p.Obeys Q post phase) (each : ∀ phase op, Q.permits phase op → (f op).Obeys P
      (fun answer phase' => Q.expects op answer ∧ phase' = Q.next phase op answer) phase) :
    (p.translate f).Obeys P post phase := by
  induction p generalizing phase with
  | pure value => exact obeys
  | call op next ih =>
    refine obeys_bind.mpr ((each phase op obeys.1).mono ?_)
    rintro answer _ ⟨expected, rfl⟩
    exact ih answer (obeys.2 answer expected)

/-- **In every phase with `inv` the program calls only what the protocol permits, and it ends in
such a phase.** -/
def Prog.Within (P : Protocol I Φ) (inv : Φ → Prop) (p : Prog I α) : Prop :=
  ∀ phase, inv phase → p.Obeys P (fun _ => inv) phase

namespace Prog.Within

variable {inv : Φ → Prop}

theorem pure (value : α) : Within P inv (Pure.pure value : Prog I α) := fun _ holds => holds

theorem bind (first : Within P inv p)
    (second : ∀ value, Within P inv (f value)) : Within P inv (p >>= f) := fun phase holds =>
  obeys_bind.mpr ((first phase holds).mono fun value phase' holds' => second value phase' holds')

theorem perform (permitted : ∀ phase, inv phase → P.permits phase op)
    (stays : ∀ phase answer, inv phase → P.expects op answer → inv (P.next phase op answer)) :
    Within P inv (perform op) := fun phase holds =>
  ⟨permitted phase holds, fun answer expected => stays phase answer holds expected⟩

theorem exceptBind {ε : Type} {p : ExceptT ε (Prog I) α} {f : α → ExceptT ε (Prog I) β}
    (first : Within P inv p.run) (second : ∀ value, Within P inv (f value).run) :
    Within P inv (p >>= f).run := by
  refine bind first fun outcome => ?_
  cases outcome with
  | ok value => exact second value
  | error stop => exact pure _

theorem exceptLift {ε : Type} (within : Within P inv p) :
    Within P inv (ExceptT.lift p : ExceptT ε (Prog I) α).run := by
  exact bind within fun value => pure _

theorem exceptAdapt {ε ε' : Type} {p : ExceptT ε (Prog I) α} (f : ε → ε')
    (within : Within P inv p.run) : Within P inv (p.adapt f).run := by
  exact bind within fun outcome => pure _

theorem exceptForM {ε : Type} {items : List α} {f : α → ExceptT ε (Prog I) Unit}
    (each : ∀ item, Within P inv (f item).run) : Within P inv (items.forM f).run := by
  induction items with
  | nil => exact pure _
  | cons item items ih => exact exceptBind (each item) fun _ => ih

theorem exceptFoldlM {ε : Type} {items : List α} {f : β → α → ExceptT ε (Prog I) β}
    (each : ∀ value item, Within P inv (f value item).run) (init : β) :
    Within P inv (items.foldlM f init).run := by
  induction items generalizing init with
  | nil => exact pure _
  | cons item items ih =>
    exact exceptBind (each init item) ih

theorem obeys (within : Within P inv p) (start : inv phase) : p.Obeys P (fun _ _ => True) phase :=
  (within phase start).mono fun _ _ _ => trivial

theorem translate {J : Interface} {f : (op : J.Op) → Prog I (J.Answer op)} (p : Prog J α)
    (each : ∀ op, Within P inv (f op)) : Within P inv (p.translate f) := by
  induction p with
  | pure value => exact pure value
  | call op next ih => exact bind (each op) ih

end Prog.Within

/-- The protocol that permits some calls, whenever they are made. -/
def Protocol.only (ok : I.Op → Prop) : Protocol I Unit where
  expects _ _ := True
  permits _ op := ok op
  next _ _ _ := ()

def Prog.CallsOnly (ok : I.Op → Prop) (p : Prog I α) : Prop :=
  p.Within (Protocol.only ok) fun _ => True

variable {ok : I.Op → Prop}

theorem Prog.CallsOnly.perform (isOk : ok op) : (perform op).CallsOnly ok :=
  Within.perform (fun _ _ => isOk) fun _ _ _ _ => trivial

theorem Prog.Within.exceptPerform {ε : Type} (isOk : ok op) :
    (ExceptT.lift (Prog.perform op) : ExceptT ε (Prog I) _).run.Within (.only ok) fun _ => True :=
  .exceptLift (CallsOnly.perform isOk)

theorem Prog.Within.exceptCall {ε : Type} {f : I.Answer op → ExceptT ε (Prog I) α} (isOk : ok op)
    (next : ∀ answer, (f answer).run.CallsOnly ok) :
    (ExceptT.lift (Prog.perform op) >>= f).run.Within (.only ok) fun _ => True :=
  .exceptBind (exceptPerform isOk) next

theorem Prog.CallsOnly.withinInv {inv : Φ → Prop}
    (only : p.CallsOnly ok) (permitted : ∀ phase op, inv phase → ok op → P.permits phase op)
    (stays : ∀ phase op answer, inv phase → ok op → inv (P.next phase op answer)) :
    p.Within P inv := by
  have obeys : p.Obeys (.only ok) (fun _ _ => True) () := only () trivial
  clear only
  induction p with
  | pure value => exact fun _ => id
  | call op next ih =>
    exact fun phase holds => ⟨permitted phase op holds obeys.1, fun answer _ =>
      ih answer (obeys.2 answer trivial) _ (stays phase op answer holds obeys.1)⟩

theorem Prog.CallsOnly.within (only : p.CallsOnly ok)
    (permitted : ∀ phase op, ok op → P.permits phase op) : p.Within P fun _ => True :=
  only.withinInv (fun phase op _ isOk => permitted phase op isOk) fun _ _ _ _ _ => trivial

theorem Prog.CallsOnly.mono {ok ok' : I.Op → Prop} (only : p.CallsOnly ok)
    (weaker : ∀ op, ok op → ok' op) : p.CallsOnly ok' :=
  only.within fun _ => weaker

variable (only : p.CallsOnly ok) {H : Handler I S E} {inv : S → Prop}
  (step : ∀ op, ok op → ∀ e s, inv s → inv (H e op s).2) {s : S} (start : inv s)
include only step start

/-- **What the permitted calls keep, the program keeps.** -/
theorem Prog.CallsOnly.ensures : p.Ensures H (fun _ => inv) s := by
  have obeys : p.Obeys (.only ok) (fun _ _ => True) () := only () trivial
  clear only
  induction p generalizing s with
  | pure value => exact start
  | call op next ih => exact fun e => ih _ (step op obeys.1 e s start) (obeys.2 _ trivial)

theorem Prog.CallsOnly.run (env : ℕ → E) : inv (p.run H env s).2 :=
  (only.ensures step start).run env

end Programs

/-! ### Programs that may stop with an error -/

section Fallible

variable {ε α β : Type} {P : Protocol I Φ}

/-- The program adheres to the protocol; if it returns a value, it does so in a phase with `post`.
-/
def Adheres (P : Protocol I Φ) (p : ExceptT ε (Prog I) α) (post : α → Φ → Prop) (phase : Φ) :
    Prop :=
  p.run.Obeys P (fun outcome phase' => ∀ value, outcome = .ok value → post value phase') phase

/-- The program as one thread among others, its result dropped. -/
def asThread (p : ExceptT ε (Prog I) α) : Prog I Unit := p.run >>= fun _ => .pure ()

namespace Adheres

variable {post : α → Φ → Prop} {phase : Φ}

theorem pure (holds : post value phase) :
    Adheres P (Pure.pure value : ExceptT ε (Prog I) α) post phase := by
  rintro _ ⟨⟩
  exact holds

variable {p : ExceptT ε (Prog I) α} {f : α → ExceptT ε (Prog I) β}

theorem bind {post : β → Φ → Prop}
    (first : Adheres P p (fun value phase' => Adheres P (f value) post phase') phase) :
    Adheres P (p >>= f) post phase := by
  refine obeys_bind.mpr (.mono first fun outcome phase' holds => ?_)
  cases outcome with
  | ok value => exact holds value rfl
  | error stop => rintro _ ⟨⟩

theorem throw (error : ε) :
    Adheres P (MonadExcept.throw error : ExceptT ε (Prog I) α) post phase := by
  rintro _ ⟨⟩

theorem call {f : I.Answer op → ExceptT ε (Prog I) α} (permitted : P.permits phase op)
    (next : ∀ answer, P.expects op answer → Adheres P (f answer) post (P.next phase op answer)) :
    Adheres P (ExceptT.lift (perform op) >>= f) post phase :=
  ⟨permitted, next⟩

theorem mono {post' : α → Φ → Prop} (adheres : Adheres P p post phase)
    (weaker : ∀ value phase', post value phase' → post' value phase') : Adheres P p post' phase :=
  Prog.Obeys.mono adheres fun _ phase' holds value ok => weaker value phase' (holds value ok)

theorem andThen {post' : β → Φ → Prop} (first : Adheres P p post phase)
    (second : ∀ value phase', post value phase' → Adheres P (f value) post' phase') :
    Adheres P (p >>= f) post' phase :=
  bind (first.mono second)

theorem lift {p : Prog I α} (obeys : p.Obeys P post phase) :
    Adheres P (ExceptT.lift p : ExceptT ε (Prog I) α) post phase := by
  refine obeys_bind.mpr (obeys.mono fun value phase' holds => ?_)
  rintro _ ⟨⟩
  exact holds

theorem ofWithin {inv : Φ → Prop} (within : p.run.Within P inv)
    (holds : inv phase) : Adheres P p (fun _ => inv) phase :=
  (within phase holds).mono fun _ _ holds' _ _ => holds'

theorem asThread (adheres : Adheres P p post phase) :
    (asThread p).Obeys P (fun _ _ => True) phase :=
  obeys_bind.mpr (.mono adheres fun _ _ _ => trivial)

end Adheres

/-- **The program adheres to the protocol and returns a value, in a phase with `post`.** -/
def Succeeds (P : Protocol I Φ) (p : ExceptT ε (Prog I) α) (post : α → Φ → Prop) (phase : Φ) :
    Prop :=
  p.run.Obeys P (fun outcome phase' => ∃ value, outcome = .ok value ∧ post value phase') phase

namespace Succeeds

variable {post : α → Φ → Prop} {phase : Φ}

theorem pure (holds : post value phase) :
    Succeeds P (Pure.pure value : ExceptT ε (Prog I) α) post phase :=
  ⟨value, rfl, holds⟩

theorem call {f : I.Answer op → ExceptT ε (Prog I) α} (permitted : P.permits phase op)
    (next : ∀ answer, P.expects op answer → Succeeds P (f answer) post (P.next phase op answer)) :
    Succeeds P (ExceptT.lift (perform op) >>= f) post phase :=
  ⟨permitted, next⟩

theorem andThen {p : ExceptT ε (Prog I) α} {f : α → ExceptT ε (Prog I) β} {post' : β → Φ → Prop}
    (first : Succeeds P p post phase)
    (second : ∀ value phase', post value phase' → Succeeds P (f value) post' phase') :
    Succeeds P (p >>= f) post' phase := by
  refine obeys_bind.mpr (.mono first ?_)
  rintro _ phase' ⟨value, rfl, holds⟩
  exact second value phase' holds

end Succeeds

/-- **The program adheres to the protocol in every phase and leaves the phase as it is.** -/
def Keeps (P : Protocol I Φ) (p : ExceptT ε (Prog I) α) : Prop :=
  ∀ phase, Adheres P p (fun _ phase' => phase' = phase) phase

namespace Keeps

theorem pure (value : α) : Keeps P (Pure.pure value : ExceptT ε (Prog I) α) :=
  fun _ => Adheres.pure rfl

theorem throw (error : ε) : Keeps P (MonadExcept.throw error : ExceptT ε (Prog I) α) :=
  fun _ => Adheres.throw error

variable {p : ExceptT ε (Prog I) α} {f : α → ExceptT ε (Prog I) β}

theorem ofCallsOnly (only : p.run.CallsOnly ok) (permitted : ∀ phase op, ok op → P.permits phase op)
    (still : ∀ phase op answer, ok op → P.next phase op answer = phase) : Keeps P p := fun _ =>
  .ofWithin (only.withinInv (fun phase op _ => permitted phase op) fun _ op answer same isOk =>
    (still _ op answer isOk).trans same) rfl

theorem andThen {post : β → Φ → Prop} (first : Keeps P p)
    (second : ∀ value, Adheres P (f value) post phase) : Adheres P (p >>= f) post phase := by
  refine .andThen (first phase) ?_
  rintro value _ rfl
  exact second value

theorem bind (first : Keeps P p) (second : ∀ value, Keeps P (f value)) : Keeps P (p >>= f) :=
  fun phase => first.andThen fun value => second value phase

theorem forM {items : List α} {f : α → ExceptT ε (Prog I) Unit}
    (each : ∀ item ∈ items, Keeps P (f item)) : Keeps P (items.forM f) := by
  induction items with
  | nil => exact pure ()
  | cons item items ih =>
    refine bind (each item mem_cons_self) fun _ => ih fun item' mem => ?_
    exact each item' (.tail _ mem)

theorem adapt {ε' : Type} (f : ε → ε') (keeps : Keeps P p) : Keeps P (p.adapt f) := by
  intro phase
  refine obeys_bind.mpr (.mono (keeps phase) fun outcome phase' kept => ?_)
  cases outcome with
  | ok value =>
    rintro _ ⟨⟩
    exact kept value rfl
  | error stop => rintro _ ⟨⟩

end Keeps

end Fallible

/-! ### One thread among others -/

section Histories

variable (H : Handler I S E)

/-- The calls of thread `i` follow the protocol from the given phase on. -/
def Conforms (P : Protocol I Φ) (i : ℕ) : Φ → List (ℕ × Event I S E) → Prop
  | _, [] => True
  | phase, (j, event) :: later =>
    if j = i then
      P.permits phase event.op ∧
        Conforms P i (P.next phase event.op (event.answer H)) later
    else Conforms P i phase later

variable {H}

section Cons

variable {P : Protocol I Φ} {i : ℕ} {phase : Φ} {event : ℕ × Event I S E}
  {later : List (ℕ × Event I S E)}

theorem conforms_cons_self (thread : event.1 = i) :
    Conforms H P i phase (event :: later) ↔ P.permits phase event.2.op ∧
      Conforms H P i (P.next phase event.2.op (event.2.answer H)) later :=
  iff_of_eq (if_pos thread)

theorem conforms_cons_of_ne (thread : event.1 ≠ i) :
    Conforms H P i phase (event :: later) ↔ Conforms H P i phase later :=
  iff_of_eq (if_neg thread)

end Cons

variable (H) in
/-- The phase that thread `i` has reached after a history. -/
def phaseAfter (P : Protocol I Φ) (i : ℕ) : Φ → List (ℕ × Event I S E) → Φ
  | phase, [] => phase
  | phase, (j, event) :: later =>
    phaseAfter P i (if j = i then P.next phase event.op (event.answer H) else phase) later

variable {P : Protocol I Φ} {i : ℕ}

theorem phaseAfter_append (phase : Φ) (earlier later : List (ℕ × Event I S E)) :
    phaseAfter H P i phase (earlier ++ later) = phaseAfter H P i (phaseAfter H P i phase earlier)
    later := by
  induction earlier generalizing phase with
  | nil => rfl
  | cons first earlier ih => exact ih _

theorem phaseAfter_congr {P Q : Protocol I Φ} (same : P.next = Q.next) (phase : Φ)
    (history : List (ℕ × Event I S E)) :
    phaseAfter H P i phase history = phaseAfter H Q i phase history := by
  induction history generalizing phase with
  | nil => rfl
  | cons first later ih =>
    unfold phaseAfter
    rw [same]
    exact ih _

theorem phaseAfter_concat_self (phase : Φ) (earlier : List (ℕ × Event I S E))
    (event : Event I S E) : phaseAfter H P i phase (earlier ++ [(i, event)]) =
      P.next (phaseAfter H P i phase earlier) event.op (event.answer H) := by
  rw [phaseAfter_append]
  exact if_pos rfl

theorem phaseAfter_concat_of_ne (other : j ≠ i) (phase : Φ) (earlier : List (ℕ × Event I S E))
    (event : Event I S E) :
    phaseAfter H P i phase (earlier ++ [(j, event)]) = phaseAfter H P i phase earlier := by
  rw [phaseAfter_append]
  exact if_neg other

variable {phase : Φ} {earlier later : List (ℕ × Event I S E)}

/-- **Each call of the thread is one that its phase permits.** -/
theorem Conforms.permits_at (conforms : Conforms H P i phase (earlier ++ (i, event) :: later)) :
    P.permits (phaseAfter H P i phase earlier) event.op := by
  induction earlier generalizing phase with
  | nil =>
    have own : (i, event).1 = i := rfl
    exact ((conforms_cons_self own).mp conforms).1
  | cons first earlier ih =>
    obtain ⟨j, other⟩ := first
    by_cases own : j = i
    · grind [conforms_cons_self, phaseAfter]
    · grind [conforms_cons_of_ne, phaseAfter]

variable {history : List (ℕ × Event I S E)}

theorem exists_event_of_phaseAfter {Q : Φ → Prop} (notStart : ¬ Q phase)
    (holds : Q (phaseAfter H P i phase history)) :
    ∃ earlier event later, history = earlier ++ (i, event) :: later ∧
    ¬ Q (phaseAfter H P i phase earlier) ∧
      Q (P.next (phaseAfter H P i phase earlier) event.op (event.answer H)) := by
  induction history using reverseRecOn with
  | nil => exact absurd holds notStart
  | append_singleton history last ih =>
    obtain ⟨j, event⟩ := last
    by_cases before : Q (phaseAfter H P i phase history)
    · grind
    · by_cases own : j = i
      · subst own
        rw [phaseAfter_concat_self] at holds
        exact ⟨history, event, [], rfl, before, holds⟩
      · rw [phaseAfter_concat_of_ne own] at holds
        exact absurd holds before

variable {pool : Pool I S}

/-- **A thread that obeys a protocol conforms to it along every schedule on which its calls get the
answers the protocol expects.** -/
theorem Pool.conforms_of_expected {p : Prog I Unit}
    (isThread : pool.threads[i]? = some p) (obeys : p.Obeys P (fun _ _ => True) phase)
    (schedule : List (ℕ × E)) (expected : ∀ event ∈ pool.trace H schedule, event.1 = i →
      P.expects event.2.op (event.2.answer H)) : Conforms H P i phase (pool.trace H schedule) := by
  induction schedule generalizing pool p phase with
  | nil => exact trivial
  | cons turn schedule ih =>
    obtain ⟨j, decision⟩ := turn
    unfold trace at expected ⊢
    cases moves : pool.step H j decision with
    | none => grind
    | some moved =>
      obtain ⟨event, pool'⟩ := moved
      obtain ⟨op, next, isCall, rfl, rfl⟩ := step_eq_some moves
      simp only [moves, forall_mem_cons] at expected
      obtain ⟨expectedHere, expectedLater⟩ := expected
      by_cases same : j = i
      · subst same
        obtain rfl := Option.some.inj (isThread.symm.trans isCall)
        refine Iff.mpr (conforms_cons_self rfl)
          ⟨obeys.1, ih (p := next (H decision op pool.shared).1) ?_ ?_ expectedLater⟩
        · grind
        · exact obeys.2 _ (expectedHere rfl)
      · refine Iff.mpr (conforms_cons_of_ne same) (ih ?_ obeys expectedLater)
        rw [getElem?_set_ne same]
        exact isThread

/-- **A thread that has returned has reached a phase in which it may return.** -/
theorem Pool.phase_of_returned {p : Prog I Unit} {post : Unit → Φ → Prop}
    (isThread : pool.threads[i]? = some p) (obeys : p.Obeys P post phase)
    (expected : ∀ event ∈ pool.trace H schedule, event.1 = i →
      P.expects event.2.op (event.2.answer H)) (returned : pool.returned H schedule i = true) :
    post () (phaseAfter H P i phase (pool.trace H schedule)) := by
  induction schedule generalizing pool p phase with
  | nil =>
    unfold Pool.returned final at returned
    rw [isThread] at returned
    cases p with
    | pure value => exact obeys
    | call op next => cases returned
  | cons turn schedule ih =>
    obtain ⟨j, decision⟩ := turn
    unfold trace at expected ⊢
    unfold Pool.returned final at returned
    cases moves : pool.step H j decision with
    | none =>
      simp only [moves] at expected returned
      exact ih isThread obeys expected returned
    | some moved =>
      obtain ⟨event, pool'⟩ := moved
      obtain ⟨op, next, isCall, rfl, rfl⟩ := step_eq_some moves
      simp only [moves, forall_mem_cons] at expected returned
      obtain ⟨expectedHere, expectedLater⟩ := expected
      unfold phaseAfter
      by_cases same : j = i
      · subst same
        obtain rfl := Option.some.inj (isThread.symm.trans isCall)
        rw [if_pos rfl]
        refine ih ?_ (obeys.2 _ (expectedHere rfl)) expectedLater returned
        exact getElem?_set_self (List.getElem?_eq_some_iff.mp isThread).1
      · rw [if_neg same]
        exact ih ((getElem?_set_ne same).trans isThread) obeys expectedLater returned

theorem Pool.trace_conforms (meets : H.Meets P) {p : Prog I Unit}
    (isThread : pool.threads[i]? = some p)
    (obeys : p.Obeys P (fun _ _ => True) phase) (schedule : List (ℕ × E)) :
    Conforms H P i phase (pool.trace H schedule) :=
  conforms_of_expected isThread obeys schedule fun _ _ _ => meets ..

theorem Pool.exists_thread (mem : event ∈ pool.trace H schedule) :
    event.1 < pool.threads.length := by
  induction schedule generalizing pool with
  | nil => cases mem
  | cons turn schedule ih =>
    obtain ⟨j, decision⟩ := turn
    unfold trace at mem
    cases moves : pool.step H j decision with
    | none => exact ih (by simpa only [moves] using mem)
    | some moved =>
      obtain ⟨first, pool'⟩ := moved
      obtain ⟨op, next, isCall, rfl, rfl⟩ := step_eq_some moves
      simp only [moves] at mem
      rcases mem_cons.mp mem with rfl | later
      · exact (List.getElem?_eq_some_iff.mp isCall).1
      · simpa using ih later

theorem Pool.conforms_of_forall (meets : H.Meets P)
    (obey : ∀ p ∈ pool.threads, p.Obeys P (fun _ _ => True) phase)
    (inRange : i < pool.threads.length) (schedule : List (ℕ × E)) :
    Conforms H P i phase (pool.trace H schedule) :=
  trace_conforms meets (getElem?_eq_getElem inRange) (obey _ (getElem_mem inRange))
    schedule

/-- **Each call of a pool is one that the protocol of its thread permits.** -/
theorem Pool.permits_at (tracker : Protocol I Φ)
    (split : pool.trace H schedule = earlier ++ (i, event) :: later) :
    ∃ p, pool.threads[i]? = some p ∧ ∀ P : Protocol I Φ, P.next = tracker.next → H.Meets P →
      p.Obeys P (fun _ _ => True) phase →
      P.permits (phaseAfter H tracker i phase earlier) event.op := by
  have inRange := exists_thread (split ▸ mem_append_right _ mem_cons_self)
  refine ⟨_, getElem?_eq_getElem inRange, fun P alike meets obeys => ?_⟩
  have conforms := trace_conforms meets (getElem?_eq_getElem inRange) obeys schedule
  rw [← phaseAfter_congr alike]
  exact (split ▸ conforms).permits_at

theorem Conforms.forall_mem {ok : I.Op → Prop} (conforms : Conforms H P i phase history)
    (demands : ∀ phase op, P.permits phase op → ok op) : ∀ event ∈ history, event.1 = i →
    ok event.2.op := by
  induction history generalizing phase with
  | nil => exact nofun
  | cons first later ih =>
    refine forall_mem_cons.mpr ?_
    by_cases thread : first.1 = i
    · grind [conforms_cons_self]
    · grind [conforms_cons_of_ne]

end Histories

end Interaction
