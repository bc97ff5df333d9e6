/-
**Sections that do not overlap.**

* `System.Alone` — a thread enters its section only while no other thread is in one.
* `System.serial_of_alone` — **then it is enough to follow one thread at a time**: outside all
  sections the shared state is at rest, and inside it stands as the one thread says that is there.
  `Serial.shared` reads off what holds in both cases.
-/

import Muli.Interaction.Machine

namespace Interaction.System

open List

variable {L S : Type} (step : Machine L S) (busy : L → Bool)

/-- All threads but the `i`-th are outside their sections. -/
def OthersOut (threads : List L) (i : ℕ) : Prop :=
  ∀ j other, threads[j]? = some other → j ≠ i → busy other = false

instance (threads : List L) (i : ℕ) : Decidable (OthersOut busy threads i) :=
  decidable_of_iff (∀ j < threads.length, j ≠ i → threads[j]?.any busy = false) <| by
    constructor
    · intro out j other isOther differs
      simpa [isOther] using out j (List.getElem?_eq_some_iff.mp isOther).1 differs
    · intro out j inRange differs
      simp [getElem?_eq_getElem inRange, out j _ (getElem?_eq_getElem inRange) differs]

/-- The turn takes a thread into its section. -/
def enters (sys : System L S) (i : ℕ) : Bool :=
  sys.threads[i]?.any fun l => !busy l && (step l sys.shared).any fun moved => busy moved.1

/-- No thread enters its section while another one is in its own. -/
def Alone (sys : System L S) (i : ℕ) : Prop := enters step busy sys i = true →
  OthersOut busy sys.threads i
deriving Decidable

/-- One thread at most is in its section; the shared state is at rest, or as that thread says. -/
def Serial (rest : S → Prop) (inside : L → S → Prop) (sys : System L S) : Prop :=
  ∃ i, OthersOut busy sys.threads i ∧
    (∀ l, sys.threads[i]? = some l → busy l = true → inside l sys.shared) ∧
    ((∀ l, sys.threads[i]? = some l → busy l = false) → rest sys.shared)

variable {step busy} {rest : S → Prop} {inside : L → S → Prop} {sys : System L S}
    {schedule : List ℕ}

theorem serial_of_idle (idle : ∀ l ∈ sys.threads, busy l = false) (atRest : rest sys.shared) :
    Serial busy rest inside sys := by
  refine ⟨0, fun _ other isOther _ => idle other (mem_of_getElem? isOther), ?_, fun _ => atRest⟩
  intro l isThread isBusy
  simp [idle l (mem_of_getElem? isThread)] at isBusy

theorem Serial.shared {P : S → Prop} (serial : Serial busy rest inside sys)
    (ofRest : ∀ s, rest s → P s)
    (ofInside : ∀ l s, busy l = true → inside l s → P s) : P sys.shared := by
  obtain ⟨i, -, holds, atRest⟩ := serial
  by_cases idle : ∀ l, sys.threads[i]? = some l → busy l = false
  · exact ofRest _ (atRest idle)
  · grind

theorem serial_set {l : L} (isThread : sys.threads[i]? = some l)
    (others : OthersOut busy sys.threads i) (holds : if busy l' then inside l' s' else rest s') :
    Serial busy rest inside ⟨sys.threads.set i l', s'⟩ := by
  obtain ⟨inRange, -⟩ := List.getElem?_eq_some_iff.mp isThread
  have isNow : (sys.threads.set i l')[i]? = some l' := getElem?_set_self inRange
  refine ⟨i, fun j other isOther differs => ?_, fun now isNow' isBusy => ?_, fun idle => ?_⟩
  · exact others j other ((getElem?_set_ne differs.symm).symm.trans isOther) differs
  · simp_all
  · rwa [idle l' isNow, if_neg Bool.false_ne_true] at holds

/-- **Following one thread at a time.** A step keeps what holds where its thread stands, and a step
outside the sections keeps what holds for a thread in its section. -/
theorem serial_of_alone
    (own : ∀ l s l' s', step l s = some (l', s') → (if busy l then inside l s else rest s) →
      if busy l' then inside l' s' else rest s')
    (outside : ∀ l s l' s' m, step l s = some (l', s') → busy l = false → busy l' = false →
      busy m = true → inside m s → inside m s')
    (start : Serial busy rest inside sys) (along : sys.Along step (Alone step busy) schedule) :
    Serial busy rest inside (sys.run step schedule) := by
  refine run_induction _ start ?_ along
  rintro sys i l l' s' ⟨k, others, holds, atRest⟩ alone isThread steps
  by_cases same : k = i
  · subst same
    refine serial_set isThread others (own l _ l' s' steps ?_)
    split_ifs with isBusy
    · exact holds l isThread isBusy
    · simp [*]
  · have free : busy l = false := others i l isThread (.symm same)
    by_cases idle : ∀ m, sys.threads[k]? = some m → busy m = false
    · refine serial_set isThread (fun j other isOther _ => ?_) (own l _ l' s' steps ?_)
      · by_cases isK : j = k
        · exact idle other (isK ▸ isOther)
        · exact others j other isOther isK
      · simp_all
    · obtain ⟨m, isBusy⟩ := not_forall.mp idle
      obtain ⟨isInside, isBusy⟩ := Classical.not_imp.mp isBusy
      have stays : busy l' = false := by
        by_contra enters
        exact isBusy (alone (by simp [System.enters, isThread, steps, free, enters]) k m
          isInside same)
      have isSame : (sys.threads.set i l')[k]? = some m :=
        (getElem?_set_ne (.symm same)).trans isInside
      refine ⟨k, fun j other isOther differs => ?_, fun m' isInside' isBusy' => ?_, fun out => ?_⟩
      · by_cases isI : j = i
        · grind
        · exact others j other ((getElem?_set_ne (.symm isI)).symm.trans isOther) differs
      · grind
      · exact absurd (out m isSame) isBusy

end Interaction.System
