/-
**Programs that give an answer.**

A request is a program that returns its answer. Among other threads the moment of the answer
matters, so it becomes one more operation.

* `Interface.answering`, `Handler.answering` — the interface with answers; giving one changes
  nothing.
* `Prog.Obeys.answering` — **a program that obeys a protocol obeys it with its answer**, if the
  phase in which it returns permits the answer.
-/

import Muli.Interaction.Typestate

namespace Interaction

variable {I : Interface} {S E Φ R : Type}

abbrev Interface.answering (I : Interface) (R : Type) : Interface where
  Op := I.Op ⊕ R
  Answer
    | .inl op => I.Answer op
    | .inr _ => Unit

def Handler.answering (H : Handler I S E) : Handler (I.answering R) S E
  | e, .inl op, s => H e op s
  | _, .inr _, s => ((), s)

def Prog.answering (p : Prog I R) : Prog (I.answering R) Unit :=
  p.translate (fun op => Prog.perform (I := I.answering R) (.inl op)) >>= fun answer =>
    Prog.perform (I := I.answering R) (.inr answer) >>= fun _ => .pure ()

def Protocol.answering (P : Protocol I Φ) (permits : Φ → R → Prop) :
    Protocol (I.answering R) Φ where
  expects
    | .inl op, answer => P.expects op answer
    | .inr _, _ => True
  permits phase
    | .inl op => P.permits phase op
    | .inr answer => permits phase answer
  next phase
    | .inl op, answer => P.next phase op answer
    | .inr _, _ => phase

def readsAnswering {V : Type} (reads : (op : I.Op) → I.Answer op → Option V) :
    (op : (I.answering R).Op) → (I.answering R).Answer op → Option V
  | .inl op, answer => reads op answer
  | .inr _, _ => none

variable {P : Protocol I Φ} {permits : Φ → R → Prop}

theorem Protocol.tracks_answering {V : Type} {reads : (op : I.Op) → I.Answer op → Option V}
    {value : Φ → Option V}
    (tracks : ∀ phase op answer, value (P.next phase op answer) =
      (reads op answer).or (value phase))
    (phase : Φ) (op : (I.answering R).Op) (answer : (I.answering R).Answer op) :
    value ((P.answering permits).next phase op answer) =
      (readsAnswering reads op answer).or (value phase) := by
  cases op with
  | inl op => exact tracks phase op answer
  | inr _ => rfl

theorem Handler.Meets.answering {H : Handler I S E} (meets : H.Meets P) :
    (H.answering (R := R)).Meets (P.answering permits) := by
  intro decision op s
  cases op with
  | inl op => exact meets decision op s
  | inr answer => trivial

theorem Prog.Obeys.answering {p : Prog I R}
    (obeys : p.Obeys P (fun answer phase' => permits phase' answer) phase) :
    p.answering.Obeys (P.answering permits) (fun _ _ => True) phase := by
  refine Prog.obeys_bind.mpr (.mono (.translate obeys ?_) ?_)
  · exact fun phase op permitted => ⟨permitted, fun answer expected => ⟨expected, rfl⟩⟩
  · exact fun answer phase' permitted => ⟨permitted, fun _ _ => trivial⟩

end Interaction
