/-
**Check, then act.**

A program reads something in one operation and acts on it in a later one; between the two the others
may have moved the state. What the read established holds at the act when nothing in between
disturbs it.

* `Conforms.permits_lastRead` — a thread that follows a protocol whose phases remember the value
  read last acts on the value of `lastRead`; `Pool.permits_lastRead` — so does every thread of a
  pool that obeys it. `remembering` is the simplest such protocol.
* `Chained.since_lastRead` — **what holds after the read and is kept by every operation since holds
  at the act.**
-/

import Muli.Interaction.Typestate

namespace Interaction

open Option

variable {I : Interface} {S E V Φ : Type}

/-! ### Conditions along a history -/

/-- Every entry of the list satisfies the condition, given what came before it. -/
def AtEach {α : Type} (holds : List α → α → Prop) (entries : List α) : Prop :=
  ∀ n, (inRange : n < entries.length) → holds (entries.take n) (entries.get ⟨n, inRange⟩)

instance {α : Type} {holds : List α → α → Prop} [∀ earlier entry, Decidable (holds earlier entry)]
    (entries : List α) : Decidable (AtEach holds entries) :=
  inferInstanceAs (Decidable (∀ n, (inRange : n < entries.length) → _))

theorem AtEach.of_split {α : Type} {holds : List α → α → Prop} {entries earlier later : List α}
    {entry : α} (atEach : AtEach holds entries) (split : entries = earlier ++ entry :: later) :
    holds earlier entry := by
  subst split
  have here := atEach earlier.length (by simp)
  simpa using here

/-- Every entry of the list satisfies the condition, given what comes before and after it. -/
def AtEachSplit {α : Type} (holds : List α → α → List α → Prop) (entries : List α) : Prop :=
  ∀ n, (inRange : n < entries.length) →
    holds (entries.take n) (entries.get ⟨n, inRange⟩) (entries.drop (n + 1))

instance {α : Type} {holds : List α → α → List α → Prop}
    [∀ earlier entry later, Decidable (holds earlier entry later)] (entries : List α) :
    Decidable (AtEachSplit holds entries) :=
  inferInstanceAs (Decidable (∀ n, (inRange : n < entries.length) → _))

theorem AtEachSplit.intro {α : Type} {holds : List α → α → List α → Prop} {entries : List α}
    (each : ∀ earlier entry later, entries = earlier ++ entry :: later →
    holds earlier entry later) : AtEachSplit holds entries := by
  intro n inRange
  refine each _ _ _ ?_
  simp

theorem AtEachSplit.of_split {α : Type} {holds : List α → α → List α → Prop}
    {entries earlier later : List α} {entry : α} (atEach : AtEachSplit holds entries)
    (split : entries = earlier ++ entry :: later) : holds earlier entry later := by
  subst split
  have here := atEach earlier.length (by simp)
  simpa using here

/-! ### The last read -/

section Reads

variable (H : Handler I S E) (reads : (op : I.Op) → I.Answer op → Option V)

/-- The last value thread `i` has read, the operation that read it and the operations since then. -/
def lastRead (i : ℕ) :
    List (ℕ × Event I S E) → Option (V × Event I S E × List (ℕ × Event I S E))
  | [] => none
  | (j, event) :: later =>
    (lastRead i later).or
      (if j = i then (reads event.op (event.answer H)).map fun value => (value, event, later)
      else none)

variable {H reads}

theorem lastRead_split (found : lastRead H reads i history = some (value, check, since)) :
    (∃ before, history = before ++ (i, check) :: since) ∧
    reads check.op (check.answer H) = some value := by
  induction history with
  | nil => cases found
  | cons first later ih =>
    obtain ⟨j, event⟩ := first
    rw [lastRead] at found
    cases inLater : lastRead H reads i later with
    | some other => grind
    | none =>
      rw [inLater, none_or] at found
      split_ifs at found with same
      obtain ⟨value', isRead, isSame⟩ := map_eq_some_iff.mp found
      obtain ⟨rfl, rfl, rfl⟩ : value' = value ∧ event = check ∧ later = since := by
        simpa using isSame
      exact ⟨⟨[], by rw [same]; rfl⟩, isRead⟩

theorem lastRead_concat (readsNothing : j = i → reads event.op (event.answer H) = none)
    (history : List (ℕ × Event I S E)) : lastRead H reads i (history ++ [(j, event)]) =
      (lastRead H reads i history).map fun found =>
      (found.1, found.2.1, found.2.2 ++ [(j, event)]) := by
  induction history with
  | nil =>
    show or none (if j = i then _ else none) = none
    split_ifs with own
    · rw [readsNothing own]
      rfl
    · rfl
  | cons first later ih =>
    rw [List.cons_append, lastRead, lastRead, ih]
    cases lastRead H reads i later with
    | some found => rfl
    | none =>
      rw [map_none, none_or, none_or]
      split_ifs
      · rw [map_map]
        rfl
      · rfl

/-- **What holds after the read and is kept by every operation since holds at the act.** -/
theorem Chained.since_lastRead {s : S} {P : S → Prop}
    (chained : Chained H s (earlier ++ event :: later))
    (found : lastRead H reads i earlier = some (value, check, since))
    (established : P (check.after H))
    (keeps : ∀ other ∈ since, P other.2.before → P (other.2.after H)) : P event.2.before := by
  obtain ⟨⟨before, rfl⟩, -⟩ := lastRead_split found
  rw [List.append_assoc, List.cons_append] at chained
  exact chained.suffix.2.holds_at keeps established

end Reads

/-! ### Programs that remember what they read -/

section Tracks

variable {H : Handler I S E} {P : Protocol I Φ} (reads : (op : I.Op) → I.Answer op → Option V)
  (value : Φ → Option V)
  (tracks : ∀ phase op answer, value (P.next phase op answer) = (reads op answer).or (value phase))
include tracks

theorem value_phaseAfter (history : List (ℕ × Event I S E)) :
      value (phaseAfter H P i phase history) =
      ((lastRead H reads i history).map Prod.fst).or (value phase) := by
  induction history generalizing phase with
  | nil => rfl
  | cons first later ih =>
    obtain ⟨j, event⟩ := first
    unfold phaseAfter lastRead
    rw [ih]
    cases lastRead H reads i later with
    | some found => rfl
    | none =>
      by_cases own : j = i
      · rw [if_pos own, if_pos own, tracks]
        cases reads event.op (event.answer H) <;> rfl
      · rw [if_neg own, if_neg own]
        rfl

variable {earlier later : List (ℕ × Event I S E)}

/-- **An operation is permitted in a phase that remembers the value its thread read last.** -/
theorem Conforms.permits_lastRead
    (conforms : Conforms H P i phase (earlier ++ (i, event) :: later)) :
    ∃ phase', P.permits phase' event.op ∧
      value phase' = ((lastRead H reads i earlier).map Prod.fst).or (value phase) :=
  ⟨_, conforms.permits_at, value_phaseAfter reads value tracks earlier⟩

theorem Pool.permits_lastRead {pool : Pool I S} (meets : H.Meets P)
    (obey : ∀ p ∈ pool.threads, p.Obeys P (fun _ _ => True) start)
    (split : pool.trace H schedule = earlier ++ (i, event) :: later) :
    ∃ phase, P.permits phase event.op ∧
      value phase = ((lastRead H reads i earlier).map Prod.fst).or (value start) := by
  have isCall : (i, event) ∈ pool.trace H schedule := split ▸
    List.mem_append_right _ List.mem_cons_self
  have conforms := Pool.conforms_of_forall meets obey (Pool.exists_thread isCall) schedule
  rw [split] at conforms
  exact conforms.permits_lastRead reads value tracks

end Tracks

def remembering (expects : (op : I.Op) → I.Answer op → Prop)
    (reads : (op : I.Op) → I.Answer op → Option V) (permits : Option V → I.Op → Prop) :
    Protocol I (Option V) where
  expects := expects
  permits := permits
  next phase op answer := (reads op answer).or phase

end Interaction
