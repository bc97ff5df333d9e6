/-
**Trigger patterns and conditions.**

* `matchesGlob_exact_iff` — the patterns that the matcher reads as documented (`*` without `/`, `**`
  with): **those without a star but for `**` at the end.**
* `evaluateCondition_eq_all_iff` — **when a conjunction has the truth value of its atoms**, however
  they are spaced: exactly if the atoms that the evaluator accepts make up for those that hold. An
  atom whose literal does not look like an operator or a quote is accepted if it holds, an absent
  tag apart.
-/

import Muli.Pipeline.Executor

namespace Muli

open List

/-! ### Patterns -/

/-- `matches_glob`: a star counts only at the end. -/
def matchesGlob (pattern value : List Char) : Bool :=
  if pattern = ['*'] then true
  else if ['*', '*'] <:+ pattern then pattern.take (pattern.length - 2) <+: value
  else if ['*'] <:+ pattern then pattern.take (pattern.length - 1) <+: value
  else pattern = value

/-- **The language of a pattern.** -/
inductive Glob : List Char → List Char → Prop
  | nil : Glob [] []
  | char {c : Char} {pattern value : List Char} (plain : c ≠ '*') (rest : Glob pattern value) :
    Glob (c :: pattern) (c :: value)
  | star {pattern value : List Char} (run : List Char) (noSlash : '/' ∉ run)
    (rest : Glob pattern value) : Glob ('*' :: pattern) (run ++ value)
  | stars {pattern value : List Char} (run : List Char) (rest : Glob pattern value) :
    Glob ('*' :: '*' :: pattern) (run ++ value)

theorem glob_cons_iff (plain : c ≠ '*') :
    Glob (c :: pattern) value ↔ ∃ rest, value = c :: rest ∧ Glob pattern rest := by
  constructor
  · intro glob
    cases glob with
    | char _ glob => exact ⟨_, rfl, glob⟩
    | _ => exact absurd rfl plain
  · rintro ⟨rest, rfl, glob⟩
    exact .char plain glob

theorem glob_append_iff (plain : '*' ∉ start) :
    Glob (start ++ pattern) value ↔ ∃ rest, value = start ++ rest ∧ Glob pattern rest := by
  induction start generalizing value with
  | nil => simp
  | cons c start ih => grind [glob_cons_iff]

/-- Every star may stand for nothing. -/
theorem glob_filter (pattern : List Char) : Glob pattern (pattern.filter (· ≠ '*')) := by
  induction pattern with
  | nil => exact .nil
  | cons c pattern ih =>
    by_cases star : c = '*'
    · subst star
      exact .star [] not_mem_nil ih
    · simpa [star] using Glob.char star ih

theorem not_mem_of_prefix_filter (within : start <+: start.filter (· ≠ '*')) : '*' ∉ start := by
  intro mem
  have shorter : (start.filter (· ≠ '*')).length < start.length :=
    length_filter_lt_length_iff_exists.mpr ⟨'*', mem, by decide⟩
  exact absurd within.length_le (Nat.not_le.mpr shorter)

theorem noSlash_of_glob (glob : Glob ['*'] value) : '/' ∉ value := by
  cases glob with
  | star run noSlash rest =>
    cases rest
    rwa [append_nil]
  | char plain => exact absurd rfl plain

/-- **The matcher accepts the language of a pattern exactly when its only stars are `**` at the
end.** -/
theorem matchesGlob_exact_iff (pattern : List Char) :
    (∀ value, matchesGlob pattern value = true ↔ Glob pattern value) ↔
      '*' ∉ pattern ∨ ∃ start, '*' ∉ start ∧ pattern = start ++ ['*', '*'] := by
  constructor
  · intro exact
    have erased := (exact _).mpr (glob_filter pattern)
    unfold matchesGlob at erased exact
    split_ifs at erased exact with single double ends
    · exact absurd (mem_singleton_self '/') (noSlash_of_glob (single ▸ (exact ['/']).mp rfl))
    · obtain ⟨start, rfl⟩ := double
      simp only [length_append, length_cons, length_nil, Nat.add_sub_cancel,
        take_left, filter_append, decide_eq_true_eq] at erased
      exact .inr ⟨start, not_mem_of_prefix_filter (by simpa using erased), rfl⟩
    · obtain ⟨start, rfl⟩ := ends
      simp only [length_append, length_cons, length_nil, Nat.add_sub_cancel,
        take_left, filter_append, decide_eq_true_eq] at erased exact
      have plain : '*' ∉ start := not_mem_of_prefix_filter (by simpa using erased)
      obtain ⟨rest, same, glob⟩ := (glob_append_iff plain).mp
        ((exact (start ++ ['/'])).mp (prefix_append _ _))
      obtain rfl := append_cancel_left same
      exact absurd (mem_singleton_self '/') (noSlash_of_glob glob)
    · exact .inl (not_mem_of_prefix_filter (of_decide_eq_true erased ▸ prefix_refl _))
  · rintro (plain | ⟨start, plain, rfl⟩) value
    · have noStar : ∀ ending, '*' ∈ ending → ¬ ending <:+ pattern := fun ending mem ends =>
        plain (ends.subset mem)
      have notStar : pattern ≠ ['*'] := fun isStar => plain (isStar ▸ mem_singleton_self _)
      have whole : Glob (pattern ++ []) value ↔ _ := glob_append_iff plain
      simp only [matchesGlob, notStar, noStar ['*', '*'] (by decide), noStar ['*']
        (by decide), if_false, decide_eq_true_eq]
      rw [append_nil] at whole
      rw [whole]
      refine ⟨fun same => ⟨[], by simp [same], .nil⟩, ?_⟩
      rintro ⟨rest, rfl, glob⟩
      cases glob
      exact (append_nil _).symm
    · have notStar : start ++ ['*', '*'] ≠ ['*'] := fun isStar => by
        simpa using congrArg length isStar
      have double : ['*', '*'] <:+ start ++ ['*', '*'] := suffix_append _ _
      simp only [matchesGlob, notStar, double, if_true, if_false, length_append, length_cons,
        length_nil, Nat.add_sub_cancel, take_left, decide_eq_true_eq]
      rw [glob_append_iff plain]
      constructor
      · rintro ⟨rest, rfl⟩
        exact ⟨rest, rfl, append_nil rest ▸ .stars rest .nil⟩
      · simp_all

/-- A trailing `*` goes on after a slash. -/
theorem matchesGlob_release : matchesGlob "release/*".toList "release/1.0/hotfix".toList = true ∧
      ¬ Glob "release/*".toList "release/1.0/hotfix".toList := by
  refine ⟨by decide, fun glob => ?_⟩
  have split : Glob ("release/".toList ++ ['*']) ("release/".toList ++ "1.0/hotfix".toList) := glob
  obtain ⟨rest, same, glob⟩ := (glob_append_iff (by decide)).mp split
  exact noSlash_of_glob (append_cancel_left same ▸ glob) (by decide)

/-! ### Conditions -/

def trimChars : List Char → List Char := Text.trim isWhiteSpace

def unquote (text : List Char) : List Char := Text.trim (· == '"') (Text.trim (· == '\'') text)

/-- Whether a variable has the value; `none` for an unknown one. -/
def compareVariable (ctx : ExpressionContext) (lhs rhs : List Char) : Option Bool :=
  if lhs = "branch".toList then some (ctx.branch.toList = rhs)
  else if lhs = "event".toList then some (ctx.event.toList = rhs)
  else if lhs = "tag".toList then some (ctx.tag.map String.toList = some rhs)
  else none

def evaluateSingle (expr : List Char) (ctx : ExpressionContext) : Bool :=
  let expr := trimChars expr
  match Text.splitFirst ['=', '='] expr with
  | some (lhs, rhs) => (compareVariable ctx (trimChars lhs) (unquote (trimChars rhs))).getD false
  | none =>
    match Text.splitFirst ['!', '='] expr with
    | some (lhs, rhs) =>
      ((compareVariable ctx (trimChars lhs) (unquote (trimChars rhs))).map not).getD false
    | none => true

def evaluateCondition (expr : String) (ctx : ExpressionContext) : Bool :=
  if expr.utf8ByteSize > 512 then false
  else
    let parts := Text.splitAll ['&', '&'] (expr.length + 1) expr.toList
    if parts.length > 10 then false
    else parts.all fun part => evaluateSingle (trimChars part) ctx

inductive ConditionVariable where
  | branch
  | event
  | tag

namespace ConditionVariable

def word : ConditionVariable → List Char
  | branch => "branch".toList
  | event => "event".toList
  | tag => "tag".toList

def present (ctx : ExpressionContext) : ConditionVariable → Option (List Char)
  | branch => some ctx.branch.toList
  | event => some ctx.event.toList
  | tag => ctx.tag.map String.toList

/-- An absent tag counts as the empty text. -/
def value (ctx : ExpressionContext) (subject : ConditionVariable) : List Char :=
  (subject.present ctx).getD []

end ConditionVariable

/-- A comparison of a variable with a quoted literal, with blanks anywhere between its parts. -/
structure Atom where
  subject : ConditionVariable
  equal : Bool
  quote : Char
  literal : List Char
  isQuote : quote = '\'' ∨ quote = '"'
  unquoted : quote ∉ literal
  lead : List Char
  before : List Char
  after : List Char
  trail : List Char
  blank : ∀ c ∈ lead ++ before ++ after ++ trail, isWhiteSpace c = true

namespace Atom

def operator (atom : Atom) : Char := if atom.equal then '=' else '!'

def quoted (atom : Atom) : List Char := [atom.quote] ++ atom.literal ++ [atom.quote]

/-- The comparison without the blanks around it. -/
def body (atom : Atom) : List Char :=
  atom.subject.word ++ atom.before ++ [atom.operator, '='] ++ (atom.after ++ atom.quoted)

def text (atom : Atom) : List Char := atom.lead ++ atom.body ++ atom.trail

def holds (ctx : ExpressionContext) (atom : Atom) : Bool :=
  decide (atom.subject.value ctx = atom.literal) == atom.equal

/-- What stands between the `&&` of the text: more than one piece if the literal has some. -/
def pieces (atom : Atom) : List (List Char) :=
  Text.splitAll ['&', '&'] (atom.text.length + 1) atom.text

/-- In single quotes a literal loses the double ones at its ends. -/
def bare (atom : Atom) : List Char :=
  if atom.quote = '\'' then Text.trim (· == '"') atom.literal else atom.literal

/-- **What the evaluator takes for true.** An absent tag equals nothing; a literal with `==` is
never unequal; and one with `&&` is cut into conditions of their own. -/
def Accepted (ctx : ExpressionContext) (atom : Atom) : Prop :=
  if ['&', '&'] <:+: atom.literal then ∀ piece ∈ atom.pieces, evaluateSingle piece ctx = true
  else if atom.equal then atom.subject.present ctx = some atom.bare
  else ¬ ['=', '='] <:+: atom.literal ∧ atom.subject.present ctx ≠ some atom.bare

/-- The literal has no `&&`, nor `==` after `!=`; in single quotes it does not begin or end with a
double one; and an absent tag is not compared with the empty text. -/
structure Plain (ctx : ExpressionContext) (atom : Atom) : Prop where
  noAnd : ¬ ['&', '&'] <:+: atom.literal
  noEquals : atom.equal = false → ¬ ['=', '='] <:+: atom.literal
  noQuote : ∀ c ∈ atom.literal.head?.toList ++ atom.literal.getLast?.toList, c ≠ '"'
  present : atom.subject.present ctx = none → atom.literal ≠ []

variable {atom : Atom} {ctx : ExpressionContext}

theorem trim_quoted {literal : List Char} (absent : q ∉ literal) :
    Text.trim (· == q) ([q] ++ literal ++ [q]) = literal := by
  refine Text.trim_append (by simp) (by simp) (fun c isFirst => ?_) (fun c isLast => ?_)
  · exact fun same => absent (eq_of_beq same ▸ List.mem_of_mem_head? isFirst)
  · exact fun same => absent (eq_of_beq same ▸ List.mem_of_getLast? isLast)

theorem trim_self {p : Char → Bool} {text : List Char} (first : ∀ c ∈ text.head?, ¬ p c)
    (last : ∀ c ∈ text.getLast?, ¬ p c) : Text.trim p text = text := by
  simpa using Text.trim_append (List.forall_mem_nil _) (List.forall_mem_nil _) first last

theorem unquote_quoted (atom : Atom) : unquote atom.quoted = atom.bare := by
  have absent := atom.unquoted
  unfold unquote quoted bare
  rcases atom.isQuote with single | double
  · rw [single] at absent ⊢
    rw [trim_quoted absent, if_pos rfl]
  · rw [double] at absent ⊢
    have outer : Text.trim (· == '\'') (['"'] ++ atom.literal ++ ['"']) = _ :=
      trim_self (by simp) (by simp [List.getLast?_cons])
    rw [outer, if_neg (by decide), trim_quoted absent]

/-- Neither a blank nor one of the characters that the evaluator looks for is a quote. -/
theorem quote_ne (atom : Atom) (other : c ≠ '\'') (other' : c ≠ '"') : atom.quote ≠ c := by
  rcases atom.isQuote with isQuote | isQuote
  · exact isQuote ▸ other.symm
  · exact isQuote ▸ other'.symm

theorem quote_not_blank (atom : Atom) : ¬ isWhiteSpace atom.quote := by
  rcases atom.isQuote with isQuote | isQuote <;> rw [isQuote] <;> decide

theorem not_mem_blank (atom : Atom) (visible : ¬ isWhiteSpace c) :
    c ∉ atom.lead ∧ c ∉ atom.before ∧ c ∉ atom.after ∧ c ∉ atom.trail := by
  have blank := atom.blank
  simp only [List.mem_append] at blank
  exact ⟨fun mem => visible (blank c (.inl (.inl (.inl mem)))),
    fun mem => visible (blank c (.inl (.inl (.inr mem)))),
    fun mem => visible (blank c (.inl (.inr mem))), fun mem => visible (blank c (.inr mem))⟩

theorem trimChars_text (atom : Atom) : trimChars atom.text = atom.body := by
  refine Text.trim_append (fun c mem => atom.blank c (by simp [mem]))
    (fun c mem => atom.blank c (by simp [mem])) ?_ ?_
  · unfold body
    cases atom.subject <;> simp [ConditionVariable.word, isWhiteSpace]
  · have ends : atom.body.getLast? = some atom.quote := by
      simp [body, quoted, List.getLast?_cons]
    rw [ends]
    simpa using atom.quote_not_blank

theorem compareVariable_word (ctx : ExpressionContext) (subject : ConditionVariable)
    (rhs : List Char) :
    compareVariable ctx subject.word rhs = some (decide (subject.present ctx = some rhs)) := by
  cases subject <;> simp [compareVariable, ConditionVariable.word, ConditionVariable.present]

/-- A left side with a character that no variable has is no variable. -/
theorem compareVariable_eq_none {lhs : List Char} (mem : '!' ∈ lhs) (rhs : List Char) :
    compareVariable ctx (trimChars lhs) rhs = none := by
  have kept : '!' ∈ trimChars lhs := by
    obtain ⟨-, -, lead, trail, split, blank, blank'⟩ := Text.padded_trim isWhiteSpace lhs
    rw [split] at mem
    rcases List.mem_append.mp mem with within | inTrail
    · exact (List.mem_append.mp within).resolve_left fun inLead =>
        absurd (blank _ inLead) (by decide)
    · exact absurd (blank' _ inTrail) (by decide)
  have other : ∀ word : List Char, '!' ∉ word → trimChars lhs ≠ word := by
    rintro word absent rfl
    exact absent kept
  unfold compareVariable
  rw [if_neg (other _ (by decide)), if_neg (other _ (by decide)), if_neg (other _ (by decide))]

theorem not_infix_pair {text : List Char} (absent : c ∉ text) : ¬ [c, c] <:+: text ++ [c] := by
  intro within
  have twice := within.sublist.count_le c
  simp [List.count_eq_zero.mpr absent] at twice

/-- A pair that is neither in the literal nor around it. -/
theorem not_infix_quoted {front ending : List Char} (notQuote : atom.quote ∉ [c, c])
    (inFront : ¬ [c, c] <:+: front) (inner : ¬ [c, c] <:+: atom.literal)
    (inEnding : ¬ [c, c] <:+: ending) :
    ¬ [c, c] <:+: front ++ atom.quote :: (atom.literal ++ atom.quote :: ending) := by
  have skip : ∀ {rest : List Char}, [c, c] <:+: atom.quote :: rest → [c, c] <:+: rest := by
    intro rest within
    refine (List.infix_cons_iff.mp within).resolve_left fun starts => notQuote ?_
    exact (List.cons_prefix_cons.mp starts).1 ▸ .head _
  intro within
  rcases Text.infix_append_of_not_mem notQuote within with early | late
  · exact inFront early
  · rcases Text.infix_append_of_not_mem notQuote (skip late) with middle | last
    · exact inner middle
    · exact inEnding (skip last)

/-- **What the evaluator makes of a comparison.** -/
theorem evaluateSingle_body (atom : Atom) (ctx : ExpressionContext) :
    evaluateSingle atom.body ctx = true ↔
      if atom.equal then atom.subject.present ctx = some atom.bare
      else ¬ ['=', '='] <:+: atom.literal ∧ atom.subject.present ctx ≠ some atom.bare := by
  have start : ∀ c ∈ ['=', '!'], c ∉ atom.subject.word ++ atom.before := by
    intro c mem
    have isOne : c = '=' ∨ c = '!' := by simpa using mem
    rw [List.mem_append, not_or]
    refine ⟨?_, (not_mem_blank _ ?_).2.1⟩
    · cases atom.subject <;> rcases isOne with rfl | rfl <;> decide
    · rcases isOne with rfl | rfl <;> decide
  have whole : trimChars atom.body = atom.body := by
    have padded := Text.padded_trim isWhiteSpace atom.text
    rw [show Text.trim isWhiteSpace atom.text = atom.body from atom.trimChars_text] at padded
    exact trim_self padded.1 padded.2.1
  have lhs : trimChars (atom.subject.word ++ atom.before) = atom.subject.word := by
    have trimmed : trimChars ([] ++ atom.subject.word ++ atom.before) = atom.subject.word := by
      refine Text.trim_append (List.forall_mem_nil _)
        (fun c mem => atom.blank c (by simp [mem])) ?_ ?_
      · cases atom.subject <;> simp [ConditionVariable.word, isWhiteSpace]
      · cases atom.subject <;> simp [ConditionVariable.word, isWhiteSpace]
    exact trimmed
  have rhs : unquote (trimChars (atom.after ++ atom.quoted)) = atom.bare := by
    have trimmed : trimChars (atom.after ++ atom.quoted ++ []) = atom.quoted := by
      refine Text.trim_append (fun c mem => atom.blank c (by simp [mem]))
        (List.forall_mem_nil _) ?_ ?_
      · simpa [quoted] using atom.quote_not_blank
      · simpa [quoted, List.getLast?_cons] using atom.quote_not_blank
    rw [List.append_nil] at trimmed
    rw [trimmed, unquote_quoted]
  unfold evaluateSingle
  rw [whole]
  cases isEqual : atom.equal with
  | true =>
    have split : Text.splitFirst ['=', '='] atom.body =
        some (atom.subject.word ++ atom.before, atom.after ++ atom.quoted) := by
      unfold body
      rw [operator, isEqual, if_pos rfl]
      exact Text.splitFirst_append ['='] '=' (not_infix_pair (start '=' (by decide))) _
    simp only [split, lhs, rhs, compareVariable_word]
    simp
  | false =>
    have frame : atom.body = (atom.subject.word ++ atom.before ++ ['!', '='] ++ atom.after) ++
        atom.quote :: (atom.literal ++ [atom.quote]) := by
      simp [body, quoted, operator, isEqual]
    by_cases within : ['=', '='] <:+: atom.literal
    · -- what stands before `==` has the other operator in it and is no variable
      obtain ⟨earlier, later, isLiteral⟩ := id within
      have occurs : atom.body = (atom.subject.word ++ atom.before ++ ['!', '='] ++ atom.after ++
          atom.quote :: earlier) ++ ['=', '='] ++ (later ++ [atom.quote]) := by
        simp [frame, ← isLiteral]
      obtain ⟨⟨left, right⟩, split, -⟩ :=
        Text.exists_splitFirst (List.cons_ne_nil '=' ['=']) _ (later ++ [atom.quote])
      rw [← occurs] at split
      have mem : '!' ∈ left := by
        have isBody := Text.eq_append_of_splitFirst split
        have upToLeft : left ++ ['='] <+: atom.body := ⟨'=' :: right, by simp [isBody]⟩
        have upToStart : atom.subject.word ++ atom.before ++ ['!'] <+: atom.body :=
          ⟨'=' :: (atom.after ++ atom.quote :: (atom.literal ++ [atom.quote])), by simp [frame]⟩
        rcases List.prefix_or_prefix_of_prefix upToLeft upToStart with shorter | longer
        · have early := shorter.subset (List.mem_append_right left (List.mem_singleton_self '='))
          exact absurd ((List.mem_append.mp early).resolve_right (by decide))
            (start '=' (by decide))
        · have late := longer.subset (List.mem_append_right _ (List.mem_singleton_self '!'))
          exact (List.mem_append.mp late).resolve_right (by decide)
      simp only [split, compareVariable_eq_none mem]
      simp [within]
    · have absent : ¬ ['=', '='] <:+: atom.body := by
        rw [frame]
        refine not_infix_quoted (by simpa using atom.quote_ne (by decide) (by decide))
          (fun early => ?_) within (by decide)
        have twice := early.sublist.count_le '='
        have notBefore := List.count_eq_zero.mpr (start '=' (by decide))
        have notAfter := List.count_eq_zero.mpr
          (atom.not_mem_blank (c := '=') (by decide)).2.2.1
        rw [List.count_append, List.count_append, notBefore, notAfter] at twice
        exact absurd twice (by decide)
      have split : Text.splitFirst ['!', '='] atom.body =
          some (atom.subject.word ++ atom.before, atom.after ++ atom.quoted) := by
        unfold body
        rw [operator, isEqual, if_neg (by decide)]
        refine Text.splitFirst_append ['!'] '=' (fun occurs => ?_) _
        have mem := occurs.subset (List.mem_append_right ['!'] (List.mem_singleton_self '='))
        exact start '=' (by decide) ((List.mem_append.mp mem).resolve_right (by decide))
      simp only [Text.splitFirst_eq_none absent, split, lhs, rhs, compareVariable_word]
      simp [within]

/-- An atom whose literal has no `&&` is one piece. -/
theorem pieces_eq_text (noAnd : ¬ ['&', '&'] <:+: atom.literal) :
    atom.pieces = [atom.text] := by
  have absent : ¬ ['&', '&'] <:+: atom.text := by
    have blank := atom.not_mem_blank (c := '&') (by decide)
    have frame : atom.text = (atom.lead ++ atom.subject.word ++ atom.before ++
        [atom.operator, '='] ++ atom.after) ++ atom.quote ::
        (atom.literal ++ atom.quote :: atom.trail) := by
      simp [text, body, quoted]
    have notFront : '&' ∉ atom.lead ++ atom.subject.word ++ atom.before ++
        [atom.operator, '='] ++ atom.after := by
      have inWord : '&' ∉ atom.subject.word := by cases atom.subject <;> decide
      have inOperator : '&' ∉ [atom.operator, '='] := by
        unfold operator
        cases atom.equal <;> decide
      simp only [List.mem_append, not_or]
      exact ⟨⟨⟨⟨blank.1, inWord⟩, blank.2.1⟩, inOperator⟩, blank.2.2.1⟩
    rw [frame]
    exact not_infix_quoted (by simpa using atom.quote_ne (by decide) (by decide))
      (fun within => notFront (within.subset (.head _))) noAnd
      fun within => blank.2.2.2 (within.subset (.head _))
  rw [pieces, Text.splitAll, Text.splitFirst_eq_none absent]

/-- An atom ends with a quote or a blank. -/
theorem exists_getLast (atom : Atom) :
    ∃ stop, atom.text.getLast? = some stop ∧ stop ∉ ['&'] ++ ['&'] := by
  have split : atom.text = (atom.lead ++ atom.subject.word ++ atom.before ++
      [atom.operator, '='] ++ atom.after ++ [atom.quote] ++ atom.literal) ++ atom.quote ::
      atom.trail := by
    simp [text, body, quoted]
  refine ⟨(atom.quote :: atom.trail).getLast (List.cons_ne_nil _ _), ?_, ?_⟩
  · rw [split, List.getLast?_append_of_ne_nil _ (List.cons_ne_nil _ _)]
    exact List.getLast?_eq_some_getLast _
  · have other : '&' ∉ atom.quote :: atom.trail := List.not_mem_cons_of_ne_of_not_mem
      (atom.quote_ne (by decide) (by decide)).symm (not_mem_blank _ (by decide)).2.2.2
    rintro mem
    obtain same : (atom.quote :: atom.trail).getLast (List.cons_ne_nil _ _) =
        '&' := by simpa using mem
    exact other (same ▸ List.getLast_mem _)

theorem evaluateSingle_trimChars (expr : List Char) (ctx : ExpressionContext) :
    evaluateSingle (trimChars expr) ctx = evaluateSingle expr ctx := by
  have padded := Text.padded_trim isWhiteSpace expr
  have again : trimChars (trimChars expr) = trimChars expr := trim_self padded.1 padded.2.1
  rw [evaluateSingle, evaluateSingle, again]

/-- The evaluator accepts an atom if it accepts all the pieces it is cut into. -/
theorem accepted_iff (atom : Atom) (ctx : ExpressionContext) :
    (∀ piece ∈ atom.pieces, evaluateSingle piece ctx = true) ↔ atom.Accepted ctx := by
  unfold Accepted
  split_ifs with cut isEqual
  · rfl
  all_goals
    rw [pieces_eq_text cut, List.forall_mem_singleton, ← evaluateSingle_trimChars,
      trimChars_text, evaluateSingle_body]
    simp [isEqual]

/-- **A plain atom is one piece, and accepted exactly if it holds.** -/
theorem Plain.accepted_iff (plain : atom.Plain ctx) :
    atom.Accepted ctx ↔ atom.holds ctx = true := by
  have isBare : atom.bare = atom.literal := by
    unfold bare
    split_ifs
    · refine trim_self (fun c isFirst same => plain.noQuote c ?_ (eq_of_beq same))
        fun c isLast same =>
        plain.noQuote c ?_ (eq_of_beq same)
      · exact List.mem_append_left _ (by simpa using isFirst)
      · exact List.mem_append_right _ (by simpa using isLast)
    · rfl
  have same : atom.subject.present ctx = some atom.literal ↔
      atom.subject.value ctx = atom.literal := by
    have present := plain.present
    unfold ConditionVariable.value
    cases isPresent : atom.subject.present ctx with
    | none => simpa using (present isPresent).symm
    | some value => simp
  rw [Accepted, if_neg plain.noAnd, holds, isBare]
  cases isEqual : atom.equal with
  | true => simp [same]
  | false => simp [same, plain.noEquals isEqual]

end Atom

/-- The comparisons with `&&` between them. -/
def conjunction (atoms : List Atom) : List Char := ['&', '&'].intercalate (atoms.map Atom.text)

theorem splitAll_conjunction {atoms : List Atom} (nonempty : atoms ≠ []) {fuel : ℕ}
    (enough : (conjunction atoms).length < fuel) :
    Text.splitAll ['&', '&'] fuel (conjunction atoms) = atoms.flatMap Atom.pieces := by
  induction atoms generalizing fuel with
  | nil => exact absurd rfl nonempty
  | cons atom atoms ih =>
    cases atoms with
    | nil =>
      have only : conjunction [atom] = atom.text := by simp [conjunction]
      rw [only] at enough ⊢
      simpa [Atom.pieces] using Text.splitAll_of_lt (by decide) enough (Nat.lt_succ_self _)
    | cons next atoms =>
      have split : conjunction (atom :: next :: atoms) =
          atom.text ++ (['&'] ++ ['&']) ++ conjunction (next :: atoms) := by
        simp [conjunction, List.intercalate_cons_cons]
      obtain ⟨stop, ends, other⟩ := atom.exists_getLast
      rw [split] at enough ⊢
      rw [List.flatMap_cons, ← ih (List.cons_ne_nil _ _) (Nat.lt_succ_self _)]
      exact Text.splitAll_append ['&'] '&' other ends enough (Nat.lt_succ_self _)
        (Nat.lt_succ_self _)

/-- The evaluator takes no text of more than 512 bytes and no more than ten pieces. -/
structure WithinLimits (atoms : List Atom) : Prop where
  short : (String.ofList (conjunction atoms)).utf8ByteSize ≤ 512
  few : (atoms.map fun atom => atom.pieces.length).sum ≤ 10

theorem evaluateCondition_conjunction (atoms : List Atom) (ctx : ExpressionContext) :
    evaluateCondition (String.ofList (conjunction atoms)) ctx = true ↔
      WithinLimits atoms ∧ ∀ atom ∈ atoms, atom.Accepted ctx := by
  by_cases none : atoms = []
  · subst none
    refine iff_of_true rfl ⟨⟨by decide, by decide⟩, List.forall_mem_nil _⟩
  · have parts := splitAll_conjunction none (Nat.lt_succ_self _)
    have accepted : (∀ atom ∈ atoms, atom.Accepted ctx) ↔
        ∀ piece ∈ atoms.flatMap Atom.pieces, evaluateSingle (trimChars piece) ctx = true := by
      simp only [← Atom.accepted_iff, Atom.evaluateSingle_trimChars, List.mem_flatMap]
      grind
    rw [evaluateCondition, String.toList_ofList, String.length_ofList, parts]
    dsimp only
    split_ifs with long many
    · exact iff_of_false (by decide) fun fits => Nat.not_le.mpr long fits.1.short
    · refine iff_of_false (by decide) fun fits => Nat.not_le.mpr many ?_
      simpa [List.length_flatMap] using fits.1.few
    · rw [List.all_eq_true, ← accepted]
      refine ⟨fun all => ⟨⟨Nat.not_lt.mp long, ?_⟩, all⟩, fun fits => fits.2⟩
      simpa [List.length_flatMap] using many

/-- Two comparisons, one without blanks. -/
def mainButManual : List Atom :=
  [⟨.branch, true, '\'', "main".toList, .inl rfl, by decide, [], [], [], [' '],
      List.all_eq_true.mp (by decide)⟩,
    ⟨.event, false, '\'', "manual".toList, .inl rfl, by decide, [' '], [' '], [' '], [],
      List.all_eq_true.mp (by decide)⟩]

end Muli
