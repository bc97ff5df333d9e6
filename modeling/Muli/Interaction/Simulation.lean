/-
**Two implementations of one interface, call by call.**

* `replay_forall₂` — **lockstep.** Where every good call on related states gets alike answers and
  leaves related states, so does every list of good calls.
-/

import Muli.Interaction.Program

namespace Interaction

variable {I : Interface} {S T E : Type}

namespace Handler

variable (H : Handler I S E)

def replay : List (E × I.Op) → S → List (Sigma I.Answer) × S
  | [], s => ([], s)
  | (e, op) :: history, s =>
    let (answer, s') := H e op s
    let (answers, final) := replay history s'
    (⟨op, answer⟩ :: answers, final)

/-- Every call is good in the state in which it is made. -/
def Along (good : S → E → I.Op → Prop) : List (E × I.Op) → S → Prop
  | [], _ => True
  | (e, op) :: history, s => good s e op ∧ Along good history (H e op s).2

theorem along_append {good : S → E → I.Op → Prop} {s : S} : H.Along good (history ++ history') s ↔
      H.Along good history s ∧ H.Along good history' (H.replay history s).2 := by
  induction history generalizing s with
  | nil => exact (and_iff_right trivial).symm
  | cons turn history ih =>
    exact (and_congr_right fun _ => ih).trans and_assoc.symm

instance decidableAlong {good : S → E → I.Op → Prop} [∀ s e op, Decidable (good s e op)] :
    (history : List (E × I.Op)) → (s : S) → Decidable (H.Along good history s)
  | [], _ => .isTrue trivial
  | (e, op) :: history, s =>
    have : Decidable (H.Along good history (H e op s).2) := decidableAlong history _
    inferInstanceAs (Decidable (good s e op ∧ H.Along good history (H e op s).2))

end Handler

inductive Alike (alike : ∀ op, I.Answer op → I.Answer op → Prop) :
    Sigma I.Answer → Sigma I.Answer → Prop
  | intro {op : I.Op} {answer answer' : I.Answer op} (same : alike op answer answer') :
      Alike alike ⟨op, answer⟩ ⟨op, answer'⟩

/-- **Two implementations in lockstep.** -/
theorem replay_forall₂ {H : Handler I S E} {K : Handler I T E} (related : S → T → Prop)
    (alike : ∀ op, I.Answer op → I.Answer op → Prop) {good : S → E → I.Op → Prop}
    (step : ∀ s t e op, related s t → good s e op → alike op (H e op s).1 (K e op t).1 ∧
      related (H e op s).2 (K e op t).2)
    {s : S} {t : T} (start : related s t) (along : H.Along good history s) :
    List.Forall₂ (Alike alike) (H.replay history s).1 (K.replay history t).1 ∧
      related (H.replay history s).2 (K.replay history t).2 := by
  induction history generalizing s t with
  | nil => exact ⟨.nil, start⟩
  | cons turn history ih =>
    obtain ⟨e, op⟩ := turn
    obtain ⟨isGood, later⟩ := along
    obtain ⟨same, next⟩ := step s t e op start isGood
    obtain ⟨answers, final⟩ := ih next later
    exact ⟨.cons (.intro same) answers, final⟩

end Interaction
