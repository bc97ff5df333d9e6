/-
**Rewriting a text from left to right.**

* `Rewriter` — a rule that finds the next place to rewrite, says what stands for it and where to go
  on, always further to the right; `Rewriter.rewrite` — the text it makes.
* `replacing` — the rule for every occurrence of a pattern, and what it makes of a text step by step
  (`rewrite_replacing_append`, `rewrite_replacing_cons`); `trim` — a text without its blank ends.
-/

import Mathlib.Algebra.GroupWithZero.Nat
import Mathlib.Data.List.Infix
import Mathlib.Data.List.DropRight
import Mathlib.Tactic.Common

namespace Text

open List Option

variable {α : Type}

theorem infix_append_of_not_mem (notMem : c ∉ pattern)
    (isInfix : pattern <:+: text ++ c :: ending) :
    pattern <:+: text ∨ pattern <:+: c :: ending := by
  rcases infix_append_iff.mp isInfix with inText | inEnding | ⟨first, second, rfl, ends, starts⟩
  · exact .inl inText
  · exact .inr inEnding
  · cases second with
    | nil => grind
    | cons d second => simp_all

section Pattern

variable [DecidableEq α]

/-- What stands before and after the first occurrence of the pattern. -/
def splitFirst (pattern : List α) : List α → Option (List α × List α)
  | [] => if pattern = [] then some ([], []) else none
  | c :: rest =>
    if pattern <+: c :: rest then some ([], (c :: rest).drop pattern.length)
    else (splitFirst pattern rest).map fun parts => (c :: parts.1, parts.2)

variable {pattern text before after : List α}

theorem eq_append_of_splitFirst
    (found : splitFirst pattern text = some (before, after)) :
    text = before ++ pattern ++ after := by
  induction text generalizing before after with
  | nil => grind [splitFirst]
  | cons c rest ih =>
    rw [splitFirst] at found
    split_ifs at found with here
    · obtain ⟨rfl, rfl⟩ := Prod.mk.inj (some.inj found)
      obtain ⟨after, split⟩ := here
      rw [← split, drop_left, nil_append]
    · obtain ⟨parts, foundLater, same⟩ := map_eq_some_iff.mp found
      obtain ⟨rfl, rfl⟩ := Prod.mk.inj same
      rw [ih foundLater, cons_append, cons_append]

theorem splitFirst_singleton (notBefore : c ∉ before) (after : List α) :
    splitFirst [c] (before ++ c :: after) = some (before, after) := by
  induction before with
  | nil => simp [splitFirst]
  | cons d before ih =>
    rw [mem_cons, not_or] at notBefore
    have later : ¬ [c] <+: d :: (before ++ c :: after) := fun starts =>
      notBefore.1 (cons_prefix_cons.mp starts).1
    rw [cons_append, splitFirst, if_neg later, ih notBefore.2]
    rfl

theorem splitFirst_eq_none (absent : ¬ pattern <:+: text) : splitFirst pattern text = none := by
  induction text with
  | nil => grind [splitFirst]
  | cons c rest ih => grind [infix_cons_iff, splitFirst]

/-- Where the pattern does not occur earlier, the text is split. -/
theorem splitFirst_append (pattern : List α) (c : α)
    (absent : ¬ pattern ++ [c] <:+: before ++ pattern) (after : List α) :
    splitFirst (pattern ++ [c]) (before ++ (pattern ++ [c]) ++ after) = some (before, after) := by
  induction before with
  | nil =>
    cases pattern with
    | nil => simp [splitFirst]
    | cons d pattern => simp [splitFirst]
  | cons d before ih =>
    rw [cons_append, infix_cons_iff, not_or] at absent
    have later : ¬ pattern ++ [c] <+: d :: (before ++ (pattern ++ [c]) ++ after) := by
      refine fun starts => absent.1 (prefix_of_prefix_length_le starts ⟨c :: after, ?_⟩ ?_)
      · simp
      · simp
    rw [cons_append, cons_append, splitFirst, if_neg later, ih absent.2]
    rfl

/-- Where the pattern occurs, it is found, there or further to the left. -/
theorem exists_splitFirst (nonempty : pattern ≠ []) (before after : List α) :
    ∃ parts, splitFirst pattern (before ++ pattern ++ after) = some parts ∧ after <:+ parts.2 := by
  induction before with
  | nil =>
    obtain ⟨c, pattern, rfl⟩ := exists_cons_of_ne_nil nonempty
    refine ⟨([], after), ?_, suffix_refl _⟩
    rw [nil_append, cons_append, splitFirst, if_pos ⟨after, rfl⟩, ← cons_append, drop_left]
  | cons c before ih =>
    rw [cons_append, cons_append, splitFirst]
    split_ifs
    · refine ⟨_, rfl, suffix_of_suffix_length_le ⟨c :: (before ++ pattern), ?_⟩
        (drop_suffix _ _) ?_⟩
      · rfl
      · simp only [length_drop, length_cons, length_append]
        omega
    · obtain ⟨parts, found, suffix⟩ := ih
      exact ⟨(c :: parts.1, parts.2), by rw [found]; rfl, suffix⟩

/-- What is found is the first occurrence. -/
theorem not_infix_of_splitFirst (pattern : List α) (c : α)
    (found : splitFirst (pattern ++ [c]) text = some (before, after)) :
    ¬ pattern ++ [c] <:+: before ++ pattern := by
  rintro ⟨earlier, later, same⟩
  have nonempty : pattern ++ [c] ≠ [] := by simp
  obtain ⟨parts, isParts, suffix⟩ := exists_splitFirst nonempty earlier (later ++ c :: after)
  have isText : earlier ++ (pattern ++ [c]) ++ (later ++ c :: after) = text := by
    rw [eq_append_of_splitFirst found, ← append_assoc, same]
    simp
  rw [isText, found] at isParts
  obtain rfl := some.inj isParts
  have := suffix.length_le
  simp at this
  omega

/-- The parts between the occurrences of the pattern, `fuel` of them at most. -/
def splitAll (pattern : List α) : ℕ → List α → List (List α)
  | 0, text => [text]
  | fuel + 1, text =>
    match splitFirst pattern text with
    | none => [text]
    | some (before, after) => before :: splitAll pattern fuel after

theorem length_of_splitFirst (found : splitFirst pattern text = some (before, after)) :
    after.length + pattern.length ≤ text.length := by
  rw [eq_append_of_splitFirst found, length_append, length_append]
  omega

/-- Fuel beyond the length of the text changes nothing. -/
theorem splitAll_of_lt (nonempty : pattern ≠ []) {fuel fuel' : ℕ} (enough : text.length < fuel)
    (enough' : text.length < fuel') : splitAll pattern fuel text = splitAll pattern fuel' text := by
  induction fuel generalizing fuel' text with
  | zero => exact absurd enough (Nat.not_lt_zero _)
  | succ fuel ih =>
    obtain ⟨fuel', rfl⟩ := Nat.exists_eq_succ_of_ne_zero (Nat.ne_zero_of_lt enough')
    rw [splitAll, splitAll]
    cases found : splitFirst pattern text with
    | none => rfl
    | some parts =>
      have shorter := length_of_splitFirst found
      have := length_pos_iff.mpr nonempty
      exact congrArg _ (ih (by omega) (by omega))

/-- **Two texts with the pattern between them**, the first of which ends with something else. -/
theorem splitAll_append (pattern : List α) (c : α) {stop : α} (notMem : stop ∉ pattern ++ [c])
    {first second : List α} (ends : first.getLast? = some stop) {fuel fuel' fuel'' : ℕ}
    (enough : (first ++ (pattern ++ [c]) ++ second).length < fuel) (enough' : first.length < fuel')
    (enough'' : second.length < fuel'') :
    splitAll (pattern ++ [c]) fuel (first ++ (pattern ++ [c]) ++ second) =
      splitAll (pattern ++ [c]) fuel' first ++ splitAll (pattern ++ [c]) fuel'' second := by
  have nonempty : pattern ++ [c] ≠ [] := by simp
  induction fuel' generalizing first fuel with
  | zero => exact absurd enough' (Nat.not_lt_zero _)
  | succ fuel' ih =>
    obtain ⟨fuel, rfl⟩ := Nat.exists_eq_succ_of_ne_zero (Nat.ne_zero_of_lt enough)
    cases found : splitFirst (pattern ++ [c]) first with
    | none =>
      have absent : ¬ pattern ++ [c] <:+: first := by
        rintro ⟨before, after, rfl⟩
        obtain ⟨parts, isParts, -⟩ := exists_splitFirst nonempty before after
        cases found.symm.trans isParts
      have split : ¬ pattern ++ [c] <:+: first ++ pattern := by
        obtain ⟨start, rfl⟩ := getLast?_eq_some_iff.mp ends
        rw [append_assoc, singleton_append]
        intro within
        rcases infix_append_of_not_mem notMem within with earlier | later
        · exact absent (earlier.trans (infix_append' [] start [stop]))
        · have whole := later.eq_of_length (by simp)
          exact notMem (whole ▸ mem_cons_self)
      rw [splitAll, splitFirst_append pattern c split, splitAll, found]
      refine congrArg _ (splitAll_of_lt nonempty ?_ enough'')
      simp only [length_append, length_cons, length_nil] at enough
      omega
    | some parts =>
      obtain ⟨before, after⟩ := parts
      have isFirst := eq_append_of_splitFirst found
      have split := not_infix_of_splitFirst pattern c found
      have endsAfter : after.getLast? = some stop := by
        rw [isFirst] at ends
        cases after with
        | nil =>
          rw [append_nil, getLast?_append, getLast?_append] at ends
          simp only [getLast?_singleton, Option.some_or] at ends
          exact absurd (some.inj ends ▸ mem_append_right pattern (mem_singleton_self c)) notMem
        | cons d after => rwa [getLast?_append_of_ne_nil _ (cons_ne_nil _ _)] at ends
      have regroup : first ++ (pattern ++ [c]) ++ second =
          before ++ (pattern ++ [c]) ++ (after ++ (pattern ++ [c]) ++ second) := by
        simp [isFirst]
      rw [regroup] at enough ⊢
      rw [splitAll, splitFirst_append pattern c split, splitAll, found]
      refine congrArg (before :: ·) (ih endsAfter ?_ ?_)
      · simp only [length_append, length_cons, length_nil] at enough ⊢
        omega
      · have := length_of_splitFirst found
        simp only [length_append, length_cons, length_nil] at this
        omega

end Pattern

/-- A rule for the next place to rewrite: what to put for the text up to its end, and the text after
it, which is shorter. -/
structure Rewriter (α : Type) where
  next : List α → Option (List α × List α)
  shrinks : ∀ {text emitted rest}, next text = some (emitted, rest) → rest.length < text.length

namespace Rewriter

variable (rewriter : Rewriter α)

/-- **The text with every place rewritten**, each looked for in what is left after the one before.
-/
def rewrite (text : List α) : List α :=
  match _found : rewriter.next text with
  | none => text
  | some (emitted, rest) => emitted ++ rewrite rest
termination_by text.length
decreasing_by exact rewriter.shrinks _found

variable {rewriter} {text emitted rest : List α}

theorem rewrite_of_none (none : rewriter.next text = none) : rewriter.rewrite text = text := by
  rw [rewrite]
  split
  · rfl
  next found => rw [none] at found; cases found

theorem rewrite_of_some (found : rewriter.next text = some (emitted, rest)) :
    rewriter.rewrite text = emitted ++ rewriter.rewrite rest := by
  rw [rewrite]
  split
  next none => rw [none] at found; cases found
  next found' => cases found.symm.trans found'; rfl

end Rewriter

/-- The rule that puts a text for every occurrence of a pattern. -/
def replacing [DecidableEq α] (pattern : List α) (nonempty : pattern ≠ []) (replacement : List α) :
    Rewriter α where
  next text := (splitFirst pattern text).map fun parts => (parts.1 ++ replacement, parts.2)
  shrinks found := by
    obtain ⟨⟨before, after⟩, split, same⟩ := map_eq_some_iff.mp found
    obtain ⟨-, rfl⟩ := Prod.mk.inj same
    have shorter := length_of_splitFirst split
    have := length_pos_iff.mpr nonempty
    dsimp only at *
    omega

section Replacing

variable [DecidableEq α] {pattern replacement : List α} {nonempty : pattern ≠ []}

theorem next_replacing_eq_none (absent : ¬ pattern <:+: text) :
    (replacing pattern nonempty replacement).next text = none := by
  show (splitFirst _ _).map _ = _
  rw [splitFirst_eq_none absent]
  rfl

@[simp] theorem rewrite_replacing_nil : (replacing pattern nonempty replacement).rewrite [] = [] :=
  Rewriter.rewrite_of_none (next_replacing_eq_none fun occurs => nonempty (infix_nil.mp occurs))

theorem rewrite_replacing_append (rest : List α) :
    (replacing pattern nonempty replacement).rewrite (pattern ++ rest) =
      replacement ++ (replacing pattern nonempty replacement).rewrite rest := by
  apply Rewriter.rewrite_of_some
  obtain ⟨first, others, rfl⟩ := exists_cons_of_ne_nil nonempty
  have starts : first :: others <+: first :: (others ++ rest) := ⟨rest, rfl⟩
  show (splitFirst _ _).map _ = _
  rw [cons_append, splitFirst, if_pos starts, ← cons_append, drop_left]
  rfl

theorem rewrite_replacing_cons (elsewhere : ¬ pattern <+: c :: rest) :
    (replacing pattern nonempty replacement).rewrite (c :: rest) =
      c :: (replacing pattern nonempty replacement).rewrite rest := by
  have later : (replacing pattern nonempty replacement).next (c :: rest) =
      ((replacing pattern nonempty replacement).next rest).map fun parts =>
      (c :: parts.1, parts.2) := by
    show (splitFirst _ _).map _ = ((splitFirst _ _).map _).map _
    rw [splitFirst, if_neg elsewhere, Option.map_map, Option.map_map]
    rfl
  cases found : (replacing pattern nonempty replacement).next rest with
  | none =>
    rw [found] at later
    rw [Rewriter.rewrite_of_none later, Rewriter.rewrite_of_none found]
  | some parts =>
    rw [found] at later
    rw [Rewriter.rewrite_of_some later, Rewriter.rewrite_of_some found, cons_append]

/-- Taking out a pattern changes a text exactly if it occurs there. -/
theorem rewrite_replacing_eq_self_iff :
    (replacing pattern nonempty []).rewrite text = text ↔ ¬ pattern <:+: text := by
  have shorter : pattern <:+: text → ((replacing pattern nonempty []).rewrite text).length <
      text.length := by
    induction text using Rewriter.rewrite.induct (replacing pattern nonempty []) with
    | case1 text none =>
      rintro ⟨before, after, rfl⟩
      obtain ⟨parts, found, -⟩ := exists_splitFirst nonempty before after
      cases none.symm.trans (congrArg (Option.map _) found)
    | case2 text emitted rest found ih =>
      intro _
      obtain ⟨parts, split, same⟩ := map_eq_some_iff.mp found
      obtain ⟨rfl, rfl⟩ := Prod.mk.inj same
      have least := length_of_splitFirst split
      have most : ((replacing pattern nonempty []).rewrite parts.2).length ≤ parts.2.length := by
        by_cases occurs : pattern <:+: parts.2
        · exact (ih occurs).le
        · rw [Rewriter.rewrite_of_none (next_replacing_eq_none occurs)]
      have := length_pos_iff.mpr nonempty
      rw [Rewriter.rewrite_of_some found, eq_append_of_splitFirst split]
      simp only [length_append, length_nil]
      omega
  refine ⟨fun same occurs => ?_, fun absent =>
    Rewriter.rewrite_of_none (next_replacing_eq_none absent)⟩
  have := shorter occurs
  rw [same] at this
  exact lt_irrefl _ this

end Replacing

section Ends

variable {p : α → Bool}

theorem rdropWhile_append_of_forall (all : ∀ c ∈ ending, p c) (text : List α) :
    (text ++ ending).rdropWhile p = text.rdropWhile p := by
  induction ending using reverseRecOn with
  | nil => rw [append_nil]
  | append_singleton ending c ih =>
    rw [← append_assoc, rdropWhile_concat, if_pos (all c (by simp))]
    exact ih fun d mem => all d (mem_append_left _ mem)

theorem rdropWhile_append_cons (stop : p c = false) (text ending : List α) :
    (text ++ c :: ending).rdropWhile p = text ++ c :: ending.rdropWhile p := by
  induction ending using reverseRecOn with
  | nil => simp [stop]
  | append_singleton ending d ih =>
    rw [← cons_append, ← append_assoc, rdropWhile_concat, rdropWhile_concat]
    split_ifs
    · exact ih
    · simp

theorem rdropWhile_of_forall_not {text : List α} (none : ∀ c ∈ text, p c = false) :
    text.rdropWhile p = text :=
  rdropWhile_eq_self_iff.mpr fun nonempty => by simp [*]

end Ends

section Parts

theorem length_intercalate {parts : List (List α)} (nonempty : parts ≠ []) :
    ([c].intercalate parts).length + 1 = (parts.map fun part => part.length + 1).sum := by
  induction parts with
  | nil => exact absurd rfl nonempty
  | cons part parts ih =>
    cases parts with
    | nil => simp [intercalate]
    | cons next parts =>
      rw [intercalate_cons_cons, length_append, length_append, map_cons,
        sum_cons, ← ih (cons_ne_nil _ _), length_singleton]
      omega

theorem not_mem_of_mem_splitOn [BEq α] [LawfulBEq α] {text : List α}
    (isPart : part ∈ text.splitOn c) : c ∉ part := by
  induction text generalizing part with
  | nil => simp_all
  | cons d text ih =>
    rw [splitOn_cons_eq_if_modifyHead] at isPart
    split_ifs at isPart with same
    · rcases mem_cons.mp isPart with rfl | later
      · exact not_mem_nil
      · exact ih later
    · have other : c ≠ d := fun equal => same (beq_iff_eq.mpr equal.symm)
      cases isSplit : text.splitOn c with
      | nil => exact absurd isSplit (splitOn_ne_nil _ _)
      | cons first parts =>
        rw [isSplit, modifyHead_cons] at isPart
        rcases mem_cons.mp isPart with rfl | later
        · simp [*]
        · simp [*]

/-- `splitn`: the first `n - 1` parts, then the rest as it stands. -/
def splitN [BEq α] (n : ℕ) (c : α) (text : List α) : List (List α) :=
  let parts := text.splitOn c
  if parts.length ≤ n then parts else parts.take (n - 1) ++ [[c].intercalate (parts.drop (n - 1))]

theorem splitN_three [BEq α] {others : List (List α)}
    (parts : text.splitOn c = first :: second :: others) :
    ∃ more, splitN 3 c text = first :: second :: more := by
  unfold splitN
  rw [parts]
  dsimp only
  split_ifs
  · exact ⟨others, rfl⟩
  · exact ⟨_, rfl⟩

end Parts

/-- The text without what satisfies `p` at both ends. -/
def trim (p : α → Bool) (text : List α) : List α := (text.dropWhile p).rdropWhile p

variable {p : α → Bool} {lead text trail : List α}

theorem dropWhile_append_self (blank : ∀ c ∈ lead, p c) (first : ∀ c ∈ text.head?, ¬ p c) :
    (lead ++ text).dropWhile p = text := by
  rw [dropWhile_append_of_pos blank]
  cases text with
  | nil => rfl
  | cons c text => exact dropWhile_cons_of_neg (first c rfl)

theorem trim_append (blank : ∀ c ∈ lead, p c) (blank' : ∀ c ∈ trail, p c)
    (first : ∀ c ∈ text.head?, ¬ p c) (last : ∀ c ∈ text.getLast?, ¬ p c) :
    trim p (lead ++ text ++ trail) = text := by
  cases text with
  | nil =>
    have all : (lead ++ [] ++ trail).dropWhile p = [] := by simp_all
    rw [trim, all]
    rfl
  | cons c rest =>
    rw [trim, append_assoc, dropWhile_append_self blank (by simpa using first), rdropWhile,
      reverse_append, dropWhile_append_self (by simpa using blank') (by rwa [head?_reverse]),
      reverse_reverse]

/-- The text is the word, which does not begin or end with a blank, with blanks around it. -/
def Padded (p : α → Bool) (word text : List α) : Prop :=
  (∀ c ∈ word.head?, ¬ p c) ∧ (∀ c ∈ word.getLast?, ¬ p c) ∧
    ∃ lead trail, text = lead ++ word ++ trail ∧ (∀ c ∈ lead, p c) ∧ ∀ c ∈ trail, p c

theorem padded_trim (p : α → Bool) (text : List α) : Padded p (trim p text) text := by
  have split := takeWhile_append_dropWhile (p := p) (l := text)
  refine ⟨fun c isFirst => ?_, fun c isLast => ?_, text.takeWhile p,
    (text.dropWhile p).rtakeWhile p,
    ?_, fun c mem => mem_takeWhile_imp mem, fun c mem => mem_rtakeWhile_imp mem⟩
  · have first : (text.dropWhile p).head? = some c := by
      obtain ⟨ending, whole⟩ := rdropWhile_prefix (p := p) (l := text.dropWhile p)
      rw [← whole, head?_append, show (rdropWhile p (text.dropWhile p)).head? = some c from isFirst]
      rfl
    have stop := head?_dropWhile_not p text
    rw [first] at stop
    simpa using stop
  · have nonempty : trim p text ≠ [] := by
      rintro empty
      rw [empty] at isLast
      cases isLast
    obtain rfl : (trim p text).getLast nonempty = c :=
      some.inj ((getLast?_eq_some_getLast nonempty).symm.trans isLast)
    exact rdropWhile_last_not p _ nonempty
  · rw [trim, append_assoc, rdropWhile_append_rtakeWhile, split]

/-- **Trimming takes the blanks away that the word has around it.** -/
theorem trim_eq_iff {word : List α} : trim p text = word ↔ Padded p word text := by
  constructor
  · rintro rfl
    exact padded_trim p text
  · rintro ⟨first, last, lead, trail, rfl, blank, blank'⟩
    exact trim_append blank blank' first last

/-- Of texts none of which ends another one, at most one ends a given text. -/
theorem eq_of_endings {texts : List String}
    (apart : ∀ first ∈ texts, ∀ second ∈ texts, first.toList <:+ second.toList → first = second)
    {first second : String} (isFirst : first ∈ texts) (isSecond : second ∈ texts) {text : List Char}
    (ends : first.toList <:+ text) (ends' : second.toList <:+ text) : first = second := by
  obtain le | le := Nat.le_total first.toList.length second.toList.length
  · exact apart _ isFirst _ isSecond (suffix_of_suffix_length_le ends ends' le)
  · exact (apart _ isSecond _ isFirst (suffix_of_suffix_length_le ends' ends le)).symm

end Text
