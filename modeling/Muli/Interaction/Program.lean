/-
**Programs that act on a shared state one operation at a time.**

A `Prog` is a finite tree: it returns a value, or it calls one operation of an `Interface` and goes
on with the answer. A `Handler` says what one operation does to the state; `E` is what the
environment decides at that moment (the clock, a failure, the result of outside work).

* `Prog.translate` — a program carried out over another interface; `Prog.Bounded` — how many calls
  it makes at most.
* `Prog.Ensures` — a postcondition that holds whatever the environment decides, by recursion on the
  program. `Ensures.run` reads it off a run, `ensures_bind` splits it at a sequence.
* `Delivers` — the same for programs that may stop with an error (`ExceptT`): one condition for the
  value, one for the state an error leaves. `Delivers.bind` and `Delivers.andThen` are its
  sequencing rules, `Delivers.forM` and `Delivers.foldlM` its loop rules. `Returns` is the case in
  which no error occurs; `Decides` says under which condition none does.
-/

import Mathlib.Logic.Relation
import Mathlib.Tactic.Common

namespace Interaction

structure Interface where
  Op : Type
  Answer : Op → Type

inductive Prog (I : Interface) (α : Type) where
  | pure (value : α)
  | call (op : I.Op) (next : I.Answer op → Prog I α)

namespace Prog

variable {I : Interface} {α β : Type}

def bind : Prog I α → (α → Prog I β) → Prog I β
  | .pure value, f => f value
  | .call op next, f => .call op fun answer => (next answer).bind f

instance : Monad (Prog I) where
  pure := .pure
  bind := .bind

theorem bind_pure (p : Prog I α) : p.bind .pure = p := by
  induction p with
  | pure value => rfl
  | call op next ih => exact congrArg (Prog.call op) (funext ih)

theorem bind_assoc {γ : Type} (p : Prog I α) (f : α → Prog I β) (g : β → Prog I γ) :
    (p.bind f).bind g = p.bind fun value => (f value).bind g := by
  induction p with
  | pure value => rfl
  | call op next ih => exact congrArg (Prog.call op) (funext ih)

instance : LawfulMonad (Prog I) :=
  LawfulMonad.mk' (Prog I) bind_pure (fun _ _ => rfl) bind_assoc

def perform (op : I.Op) : Prog I (I.Answer op) := .call op .pure

/-- The program with each operation carried out by a program over another interface. -/
def translate {J : Interface} (f : (op : I.Op) → Prog J (I.Answer op)) : Prog I α → Prog J α
  | .pure value => .pure value
  | .call op next => f op >>= fun answer => (next answer).translate f

/-! ### The number of calls -/

def Bounded : Prog I α → ℕ → Prop
  | .pure _, _ => True
  | .call _ next, n => 0 < n ∧ ∀ answer, (next answer).Bounded (n - 1)

namespace Bounded

variable {m n : ℕ}

theorem mono {p : Prog I α} (bounded : p.Bounded m) (atMost : m ≤ n) : p.Bounded n := by
  induction p generalizing m n with
  | pure value => exact trivial
  | call op next ih =>
    exact ⟨Nat.lt_of_lt_of_le bounded.1 atMost,
      fun answer => ih answer (bounded.2 answer) (Nat.sub_le_sub_right atMost 1)⟩

theorem bind {p : Prog I α} {f : α → Prog I β} (first : p.Bounded m)
    (second : ∀ value, (f value).Bounded n) : (p >>= f).Bounded (m + n) := by
  induction p generalizing m with
  | pure value => exact (second value).mono (Nat.le_add_left n m)
  | call op next ih =>
    refine ⟨Nat.lt_of_lt_of_le first.1 (Nat.le_add_right m n), fun answer => ?_⟩
    rw [Nat.sub_add_comm first.1]
    exact ih answer (first.2 answer)

theorem exceptBind {ε : Type} {p : ExceptT ε (Prog I) α} {f : α → ExceptT ε (Prog I) β}
    (first : p.run.Bounded m) (second : ∀ value, (f value).run.Bounded n) :
    (p >>= f).run.Bounded (m + n) := by
  refine bind first fun outcome => ?_
  cases outcome with
  | ok value => exact second value
  | error stop => exact trivial

theorem exceptCall {ε : Type} {f : I.Answer op → ExceptT ε (Prog I) α}
    (next : ∀ answer, (f answer).run.Bounded n) :
    (ExceptT.lift (Prog.perform op) >>= f).run.Bounded (n + 1) :=
  ⟨Nat.succ_pos n, next⟩

end Bounded

end Prog

/-- What one operation answers and how it changes the state, given the environment's decision. -/
abbrev Handler (I : Interface) (S E : Type) := E → (op : I.Op) → S → I.Answer op × S

section Sequential

variable {I : Interface} {S E α β : Type} (H : Handler I S E)

/-- The program alone on the state; the `n`-th operation meets the decision `env n`. -/
def Prog.run : (ℕ → E) → Prog I α → S → α × S
  | _, .pure value, s => (value, s)
  | env, .call op next, s =>
    Prog.run (fun n => env (n + 1)) (next (H (env 0) op s).1) (H (env 0) op s).2

/-- **Whatever the environment decides, the program returns with `post`.** -/
def Prog.Ensures : Prog I α → (α → S → Prop) → S → Prop
  | .pure value, post, s => post value s
  | .call op next, post, s => ∀ e, Prog.Ensures (next (H e op s).1) post (H e op s).2

namespace Prog

variable {H} {p : Prog I α} {s : S}

theorem ensures_bind {f : α → Prog I β} {post : β → S → Prop} :
    Ensures H (p >>= f) post s ↔ Ensures H p (fun value s' => Ensures H (f value) post s') s := by
  induction p generalizing s with
  | pure value => rfl
  | call op next ih => exact forall_congr' fun e => ih _

variable {post post' : α → S → Prop}

theorem Ensures.mono (holds : Ensures H p post s)
    (weaker : ∀ value s', post value s' → post' value s') : Ensures H p post' s := by
  induction p generalizing s with
  | pure value => exact weaker value s holds
  | call op next ih => exact fun e => ih _ (holds e)

theorem Ensures.and (holds : Ensures H p post s)
    (holds' : Ensures H p post' s) :
    Ensures H p (fun value s' => post value s' ∧ post' value s') s := by
  induction p generalizing s with
  | pure value => exact ⟨holds, holds'⟩
  | call op next ih => exact fun e => ih _ (holds e) (holds' e)

theorem ensures_of_step {inv : S → Prop} (step : ∀ e op s, inv s → inv (H e op s).2) (p : Prog I α)
    (start : inv s) : Ensures H p (fun _ => inv) s := by
  induction p generalizing s with
  | pure value => exact start
  | call op next ih => exact fun e => ih _ (step e op s start)

/-- **The postcondition holds of every run.** -/
theorem Ensures.run {post : α → S → Prop} (holds : Ensures H p post s)
    (env : ℕ → E) : post (p.run H env s).1 (p.run H env s).2 := by
  induction p generalizing s env with
  | pure value => exact holds
  | call op next ih => exact ih _ (holds (env 0)) _

/-- **A program on a part of the state.** Each of its operations is carried out by a program that
changes that part as the handler of the part does. -/
theorem Ensures.translate {J : Interface} {T F : Type} {K : Handler J T F}
    {f : (op : J.Op) → Prog I (J.Answer op)} (view : T → S)
    (each : ∀ op t (post : J.Answer op → S → Prop),
      (∀ e, post (K e op t).1 (view (K e op t).2)) → (f op).Ensures H post (view t))
    {p : Prog J α} {post : α → S → Prop} {t : T}
    (holds : p.Ensures K (fun value t' => post value (view t')) t) :
    (p.translate f).Ensures H post (view t) := by
  induction p generalizing t with
  | pure value => exact holds
  | call op next ih => exact ensures_bind.mpr (each op t _ fun e => ih _ (holds e))

end Prog

end Sequential

/-! ### Programs that may stop with an error -/

section Fallible

variable {I : Interface} {S E ε α β : Type} {H : Handler I S E}

/-- **The rule for loops of a logic with the rules for `pure` and `>>=`.** -/
theorem loop_rule {ε X : Type} (T : ExceptT ε (Prog I) β → (β → X → Prop) → X → Prop)
    (pure : ∀ {value post x}, post value x → T (pure value) post x)
    (andThen : ∀ {p f post post' x}, T p post x →
      (∀ value x', post value x' → T (f value) post' x') → T (p >>= f) post' x)
    {f : β → α → ExceptT ε (Prog I) β} (inv : List α → β → X → Prop) {x : X} (start : inv [] init x)
    (step : ∀ done item later, items = done ++ item :: later → ∀ value x, inv done value x →
      T (f value item) (inv (done ++ [item])) x) :
    T (items.foldlM f init) (inv items) x := by
  suffices ∀ later done value x, items = done ++ later → inv done value x →
      T (later.foldlM f value) (inv items) x from this items [] init x rfl start
  intro later
  induction later with
  | nil => simp_all
  | cons item later ih => grind

theorem forM_eq_foldlM {ε : Type} (items : List α) (f : α → ExceptT ε (Prog I) Unit) :
    items.forM f = items.foldlM (fun _ => f) () := by
  induction items with
  | nil => rfl
  | cons item items ih =>
    exact congrArg (f item >>= ·) (funext fun _ => ih)

def Settles (post : α → S → Prop) (fail : S → Prop) : Except ε α → S → Prop
  | .ok value, s => post value s
  | .error _, s => fail s

/-- **The program delivers a value with `post`, or stops with an error in a state with `fail`.** -/
def Delivers (H : Handler I S E) (p : ExceptT ε (Prog I) α) (post : α → S → Prop)
    (fail : S → Prop) (s : S) : Prop :=
  p.run.Ensures H (Settles post fail) s

namespace Delivers

variable {post : α → S → Prop} {fail : S → Prop} {s : S}

theorem pure (holds : post value s) :
    Delivers H (Pure.pure value : ExceptT ε (Prog I) α) post fail s := holds

theorem throw (failed : fail s) :
    Delivers H (MonadExcept.throw stop : ExceptT ε (Prog I) α) post fail s := failed

variable {p : ExceptT ε (Prog I) α} {f : α → ExceptT ε (Prog I) β}

theorem bind {post : β → S → Prop}
    (first : Delivers H p (fun value s' => Delivers H (f value) post fail s') fail s) :
    Delivers H (p >>= f) post fail s := by
  refine Prog.ensures_bind.mpr (first.mono fun outcome s' holds => ?_)
  cases outcome <;> exact holds

theorem mono {post' : α → S → Prop} {fail' : S → Prop}
    (holds : Delivers H p post fail s) (weaker : ∀ value s', post value s' → post' value s')
    (weakerFail : ∀ s', fail s' → fail' s') : Delivers H p post' fail' s := by
  refine Prog.Ensures.mono holds fun outcome s' holds' => ?_
  cases outcome with
  | ok value => exact weaker value s' holds'
  | error stop => exact weakerFail s' holds'

theorem andThen {post' : β → S → Prop} (first : Delivers H p post fail s)
    (second : ∀ value s', post value s' → Delivers H (f value) post' fail s') :
    Delivers H (p >>= f) post' fail s :=
  bind (first.mono second fun _ => id)

theorem lift {p : Prog I α} (holds : p.Ensures H post s) :
    Delivers H (ExceptT.lift p : ExceptT ε (Prog I) α) post fail s := by
  exact Prog.ensures_bind.mpr (holds.mono fun _ _ holds' => holds')

theorem ensures_iff {inv : S → Prop} :
    Delivers H p (fun _ => inv) inv s ↔ p.run.Ensures H (fun _ => inv) s := by
  constructor
  · intro delivers
    refine .mono delivers fun outcome s' holds => ?_
    cases outcome <;> exact holds
  · intro ensures
    refine Prog.Ensures.mono ensures fun outcome s' holds => ?_
    cases outcome <;> exact holds

theorem anyway (p : ExceptT ε (Prog I) α) (s : S) :
    Delivers H p (fun _ _ => True) (fun _ => True) s :=
  ensures_iff.mpr (Prog.ensures_of_step (fun _ _ _ _ => trivial) p.run trivial)

theorem call {f : I.Answer op → ExceptT ε (Prog I) α}
    (each : ∀ e, Delivers H (f (H e op s).1) post fail (H e op s).2) :
    Delivers H (ExceptT.lift (Prog.perform op) >>= f) post fail s := each

/-- **A loop that carries a value**, with an invariant on the items done so far. -/
theorem foldlM {f : β → α → ExceptT ε (Prog I) β} (inv : List α → β → S → Prop)
    (start : inv [] init s)
    (step : ∀ done item later, items = done ++ item :: later → ∀ value s, inv done value s →
      Delivers H (f value item) (fun value' => inv (done ++ [item]) value') fail s) :
    Delivers H (items.foldlM f init) (inv items) fail s :=
  loop_rule (fun p post => Delivers H p post fail) pure andThen inv start step

theorem forM {f : α → ExceptT ε (Prog I) Unit} (inv : List α → S → Prop) (start : inv [] s)
    (step : ∀ done item later, items = done ++ item :: later → ∀ s, inv done s →
      Delivers H (f item) (fun _ => inv (done ++ [item])) fail s) :
    Delivers H (items.forM f) (fun _ => inv items) fail s := by
  rw [forM_eq_foldlM]
  exact foldlM (fun done _ => inv done) start fun done item later split _ =>
    step done item later split

theorem run_eq_ok (holds : Delivers H p post (fun _ => False) s)
    (env : ℕ → E) : ∃ value, (p.run.run H env s).1 = .ok value ∧
    post value (p.run.run H env s).2 := by
  have settles := Prog.Ensures.run holds env
  cases answer : (p.run.run H env s).1 with
  | ok value =>
    rw [answer] at settles
    exact ⟨value, rfl, settles⟩
  | error stop =>
    rw [answer] at settles
    exact settles.elim

end Delivers

def Concludes (post : α → S → Prop) (fail : ε → S → Prop) : Except ε α → S → Prop
  | .ok value, s => post value s
  | .error stop, s => fail stop s

/-- **The program ends with a value with `post`, or with an error with `fail`**, which may depend on
the error. -/
def Ends (H : Handler I S E) (p : ExceptT ε (Prog I) α) (post : α → S → Prop) (fail : ε → S → Prop)
    (s : S) : Prop :=
  p.run.Ensures H (Concludes post fail) s

namespace Ends

variable {post : α → S → Prop} {fail : ε → S → Prop} {s : S}

theorem pure (holds : post value s) :
    Ends H (Pure.pure value : ExceptT ε (Prog I) α) post fail s := holds

theorem throw (failed : fail stop s) :
    Ends H (MonadExcept.throw stop : ExceptT ε (Prog I) α) post fail s := failed

variable {p : ExceptT ε (Prog I) α} {fail' : ε → S → Prop}

theorem mono {post' : α → S → Prop}
    (holds : Ends H p post fail s) (weaker : ∀ value s', post value s' → post' value s')
    (weakerFail : ∀ stop s', fail stop s' → fail' stop s') : Ends H p post' fail' s := by
  refine Prog.Ensures.mono holds fun outcome s' holds' => ?_
  cases outcome with
  | ok value => exact weaker value s' holds'
  | error stop => exact weakerFail stop s' holds'

variable {f : α → ExceptT ε (Prog I) β} {post' : β → S → Prop}

theorem andThen (first : Ends H p post fail s)
    (second : ∀ value s', post value s' → Ends H (f value) post' fail' s')
    (stops : ∀ stop s', fail stop s' → fail' stop s') : Ends H (p >>= f) post' fail' s := by
  refine Prog.ensures_bind.mpr (.mono first fun outcome s' holds => ?_)
  cases outcome with
  | ok value => exact second value s' holds
  | error stop => exact stops stop s' holds

theorem next (first : Ends H p post fail s)
    (second : ∀ value s', post value s' → Ends H (f value) post' fail s') :
    Ends H (p >>= f) post' fail s :=
  first.andThen second fun _ _ => id

theorem call {f : I.Answer op → ExceptT ε (Prog I) α}
    (each : ∀ e, Ends H (f (H e op s).1) post fail (H e op s).2) :
    Ends H (ExceptT.lift (Prog.perform op) >>= f) post fail s := each

theorem lift {p : Prog I α} (holds : p.Ensures H post s) :
    Ends H (ExceptT.lift p : ExceptT ε (Prog I) α) post fail s := by
  exact Prog.ensures_bind.mpr (holds.mono fun _ _ holds' => holds')

theorem adapt {ε' : Type} (f : ε → ε') {fail' : ε' → S → Prop}
    (ends : Ends H p post (fun stop => fail' (f stop)) s) : Ends H (p.adapt f) post fail' s := by
  refine Prog.ensures_bind.mpr (.mono ends fun outcome s' holds => ?_)
  cases outcome <;> exact holds

end Ends

/-- **The program returns a value with `post` under the condition, and stops with an error
otherwise.** -/
def Decides (H : Handler I S E) (p : ExceptT ε (Prog I) α) (condition : Prop) (post : α → S → Prop)
    (s : S) : Prop :=
  p.run.Ensures H (fun outcome s' => (condition ∧ ∃ value, outcome = .ok value ∧ post value s') ∨
    ¬ condition ∧ ∃ stop, outcome = .error stop) s

namespace Decides

variable {condition condition' : Prop} {post : α → S → Prop} {s : S}

theorem pure (holds : condition) (result : post value s) :
    Decides H (Pure.pure value : ExceptT ε (Prog I) α) condition post s :=
  .inl ⟨holds, value, rfl, result⟩

theorem throw (fails : ¬ condition) :
    Decides H (MonadExcept.throw stop : ExceptT ε (Prog I) α) condition post s :=
  .inr ⟨fails, stop, rfl⟩

variable {p : ExceptT ε (Prog I) α}

theorem congr (same : condition ↔ condition')
    (decides : Decides H p condition post s) : Decides H p condition' post s :=
  propext same ▸ decides

theorem mono {post' : α → S → Prop} (decides : Decides H p condition post s)
    (weaker : ∀ value s', post value s' → post' value s') : Decides H p condition post' s := by
  refine Prog.Ensures.mono decides fun outcome s' result => ?_
  rcases result with ⟨holds, value, rfl, isPost⟩ | stopped
  · exact .inl ⟨holds, value, rfl, weaker value s' isPost⟩
  · exact .inr stopped

variable {f : α → ExceptT ε (Prog I) β} {post' : β → S → Prop}

theorem bind (first : Decides H p condition post s) (needs : condition' → condition)
    (next : ∀ value s', condition → post value s' → Decides H (f value) condition' post' s') :
    Decides H (p >>= f) condition' post' s := by
  refine Prog.ensures_bind.mpr (.mono first fun outcome s' result => ?_)
  rcases result with ⟨holds, value, rfl, isPost⟩ | ⟨fails, stop, rfl⟩
  · exact next value s' holds isPost
  · exact .inr ⟨mt needs fails, stop, rfl⟩

theorem liftBind {p : Prog I α}
    (first : p.Ensures H (fun value s' => Decides H (f value) condition post' s') s) :
    Decides H (ExceptT.lift p >>= f) condition post' s := by
  unfold Decides
  rw [ExceptT.run_bind_lift]
  exact Prog.ensures_bind.mpr first

end Decides

/-- **The program never stops with an error.** -/
def Returns (H : Handler I S E) (p : ExceptT ε (Prog I) α) : Prop :=
  ∀ s, Delivers H p (fun _ _ => True) (fun _ => False) s

namespace Returns

theorem pure (value : α) : Returns H (Pure.pure value : ExceptT ε (Prog I) α) :=
  fun _ => Delivers.pure trivial

variable {p : ExceptT ε (Prog I) α}

theorem bind {f : α → ExceptT ε (Prog I) β} (first : Returns H p)
    (second : ∀ value, Returns H (f value)) : Returns H (p >>= f) := fun s =>
  Delivers.bind ((first s).mono (fun value s' _ => second value s') fun _ never => never)

theorem lift (p : Prog I α) : Returns H (ExceptT.lift p : ExceptT ε (Prog I) α) := fun s => by
  exact .lift (Prog.ensures_of_step (fun _ _ _ _ => trivial) p trivial)

theorem run (returns : Returns H p) (env : ℕ → E) (s : S) :
    ∃ value, (p.run.run H env s).1 = .ok value := by
  obtain ⟨value, returned, -⟩ := (returns s).run_eq_ok env
  exact ⟨value, returned⟩

end Returns

end Fallible

theorem Prog.run_comap {I : Interface} {S E E' α : Type} (H : Handler I S E) (f : E' → E)
    (env : ℕ → E') (p : Prog I α) (s : S) :
    p.run (fun e => H (f e)) env s = p.run H (fun n => f (env n)) s := by
  induction p generalizing env s with
  | pure value => rfl
  | call op next ih => exact ih _ _ _

end Interaction
