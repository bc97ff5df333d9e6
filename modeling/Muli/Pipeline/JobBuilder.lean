/-
**The job of a step run.**

A job is built from the definition its step run is assigned to: the variables of the pipeline, of
the definition and of the run and the built-in ones, later ones in the place of earlier ones, with
the references in their values and in the commands replaced.

* `exists_interpolate_eq` — **the text around the expressions is kept, each of them is replaced or
  stands.**
* `buildEnvVars` — the environment of a job; `find_buildEnvVars` — **its variables are the last
  definitions of their names**, interpolated.
* `branches_agree_iff` — **a job sees the documented branch only of a branch reference.**
* `substeps_distinct_iff` — **when the substeps of an accepted job have different names.**
* `registryToken_unseen` — **a job that did not ask for registry write access does not depend on the
  registry token of the run.**
-/

import Muli.Pipeline.Executor

namespace Muli

open List Option Table Text EnvVar

/-! ### Interpolation -/

def EnvMap.get (env : EnvMap) (name : String) : Option String := (find env name).map Prod.snd

/-- The value an expression stands for; a reference to a secret is not looked up elsewhere. -/
def resolveReference (secrets env : EnvMap) (expr : String) : Option String :=
  match afterStart "secrets." expr with
  | some name => secrets.get (trim name)
  | none =>
    match afterStart "env." expr with
    | some name => env.get (trim name)
    | none => none

/-- The text that is put for a reference: its value, or the reference as it stands. -/
def referenceText (secrets env : EnvMap) (expr : List Char) : List Char :=
  match resolveReference secrets env (trim (String.ofList expr)) with
  | some value => value.toList
  | none => "$\x7b\x7b".toList ++ expr ++ "\x7d\x7d".toList

/-- The rule for the next reference; one that is not closed ends the search. -/
def references (secrets env : EnvMap) : Text.Rewriter Char where
  next remaining :=
    (splitFirst "$\x7b\x7b".toList remaining).bind fun opened =>
      (splitFirst "\x7d\x7d".toList opened.2).map fun closed =>
        (opened.1 ++ referenceText secrets env closed.1, closed.2)
  shrinks found := by
    obtain ⟨⟨before, after⟩, opened, rest⟩ := bind_eq_some_iff.mp found
    obtain ⟨⟨expr, later⟩, closed, same⟩ := map_eq_some_iff.mp rest
    obtain ⟨-, rfl⟩ := Prod.mk.inj same
    have afterOpen := length_of_splitFirst opened
    have afterClose := length_of_splitFirst closed
    have two : "\x7d\x7d".toList.length = 2 := rfl
    dsimp only at *
    omega

/-- Replace the references to secrets and to variables in a text. -/
def interpolate (input : String) (secrets env : EnvMap) : String :=
  String.ofList ((references secrets env).rewrite input.toList)

/-- The next expression of a text, after the text before it: it starts where the first one is opened
and ends where one is first closed. -/
structure Expression where
  before : List Char
  expr : List Char
  opens : ¬ "$\x7b\x7b".toList <:+: before ++ "$\x7b".toList
  closes : ¬ "\x7d\x7d".toList <:+: expr ++ "\x7d".toList

/-- The expressions of a text one after the other, and the rest, in which none is closed. -/
structure Template where
  expressions : List Expression
  rest : List Char
  unclosed : ∀ before after, rest = before ++ "$\x7b\x7b".toList ++ after →
    ¬ "\x7d\x7d".toList <:+: after

namespace Template

def source (template : Template) : List Char :=
  (template.expressions.flatMap fun part => part.before ++ "$\x7b\x7b".toList ++ part.expr ++
    "\x7d\x7d".toList) ++ template.rest

end Template

/-- **What an expression stands for:** `secrets.X` for the secret and `env.X` for the variable with
the name X, in each case with any blanks around it. -/
def StandsFor (secrets env : String → Option String) (expr : List Char) (value : String) : Prop :=
  ∃ scope rest name, Padded isWhiteSpace (scope ++ rest) expr ∧ Padded isWhiteSpace name rest ∧
    (scope = "secrets.".toList ∧ secrets (String.ofList name) = some value ∨
      scope = "env.".toList ∧ env (String.ofList name) = some value)

/-- What is put for an expression: the value it stands for, or itself if there is none. -/
def Replaced (secrets env : String → Option String) (expr text : List Char) : Prop :=
  (∃ value, StandsFor secrets env expr value ∧ text = value.toList) ∨
    (∀ value, ¬ StandsFor secrets env expr value) ∧
      text = "$\x7b\x7b".toList ++ expr ++ "\x7d\x7d".toList

/-- **The second text is the first one with its expressions replaced.** Nothing that was put in is
read again. -/
def Interpolated (secrets env : String → Option String) (input output : List Char) : Prop :=
  ∃ (template : Template) (texts : List (List Char)), template.source = input ∧
    Forall₂ (fun part text => Replaced secrets env part.expr text) template.expressions texts ∧
    output = (zipWith (fun part text => part.before ++ text) template.expressions texts).flatten ++
      template.rest

theorem afterStart_append (start : String) (rest : List Char) :
    afterStart start (String.ofList (start.toList ++ rest)) = some (String.ofList rest) := by
  rw [afterStart, String.toList_ofList, if_pos (prefix_append ..), ← String.length_toList,
    drop_left]

theorem afterStart_eq_none {start : String} {text : List Char} (other : ¬ start.toList <+: text) :
    afterStart start (String.ofList text) = none := by
  rw [afterStart, String.toList_ofList, if_neg other]

theorem resolveReference_eq_some_iff {secrets env : EnvMap} {expr : List Char} {value : String} :
    resolveReference secrets env (trim (String.ofList expr)) = some value ↔
      StandsFor secrets.get env.get expr value := by
  have trimmed (text : List Char) :
      trim (String.ofList text) = String.ofList (Text.trim isWhiteSpace text) := by
    rw [trim, String.toList_ofList]
  constructor
  · intro found
    have found : resolveReference secrets env (String.ofList (Text.trim isWhiteSpace expr)) =
        some value := trimmed expr ▸ found
    have padded {scope rest : List Char} (split : scope ++ rest = Text.trim isWhiteSpace expr) :
        Padded isWhiteSpace (scope ++ rest) expr := trim_eq_iff.mp split.symm
    by_cases secret : "secrets.".toList <+: Text.trim isWhiteSpace expr
    · obtain ⟨rest, split⟩ := secret
      rw [resolveReference, ← split, afterStart_append] at found
      exact ⟨_, rest, _, padded split, padded_trim .., .inl ⟨rfl, trimmed rest ▸ found⟩⟩
    · rw [resolveReference, afterStart_eq_none secret] at found
      by_cases inEnv : "env.".toList <+: Text.trim isWhiteSpace expr
      · obtain ⟨rest, split⟩ := inEnv
        rw [← split, afterStart_append] at found
        exact ⟨_, rest, _, padded split, padded_trim .., .inr ⟨rfl, trimmed rest ▸ found⟩⟩
      · rw [afterStart_eq_none inEnv] at found
        cases found
  · rintro ⟨scope, rest, name, isExpr, isName, ⟨rfl, found⟩ | ⟨rfl, found⟩⟩
    · rw [trimmed, trim_eq_iff.mpr isExpr, resolveReference, afterStart_append]
      exact (trimmed rest ▸ trim_eq_iff.mpr isName ▸ rfl :
        secrets.get (trim (String.ofList rest)) = secrets.get (String.ofList name)).trans found
    · have noSecret : ¬ "secrets.".toList <+: "env.".toList ++ rest := by simp
      rw [trimmed, trim_eq_iff.mpr isExpr, resolveReference, afterStart_eq_none noSecret,
        afterStart_append]
      exact (trimmed rest ▸ trim_eq_iff.mpr isName ▸ rfl :
        env.get (trim (String.ofList rest)) = env.get (String.ofList name)).trans found

theorem replaced_referenceText (secrets env : EnvMap) (expr : List Char) :
    Replaced secrets.get env.get expr (referenceText secrets env expr) := by
  unfold referenceText
  cases found : resolveReference secrets env (trim (String.ofList expr)) with
  | some value => exact .inl ⟨value, resolveReference_eq_some_iff.mp found, rfl⟩
  | none =>
    refine .inr ⟨fun value stands => ?_, rfl⟩
    cases found.symm.trans (resolveReference_eq_some_iff.mpr stands)

theorem interpolated_rewrite (secrets env : EnvMap) (text : List Char) :
    Interpolated secrets.get env.get text ((references secrets env).rewrite text) := by
  induction text using Text.Rewriter.rewrite.induct (references secrets env) with
  | case1 text none =>
    refine ⟨⟨[], text, ?_⟩, [], rfl, .nil, Text.Rewriter.rewrite_of_none none⟩
    rintro before after rfl ⟨expr, later, rfl⟩
    obtain ⟨opened, isOpened, suffix⟩ := exists_splitFirst
      (by decide : "$\x7b\x7b".toList ≠ []) before (expr ++ "\x7d\x7d".toList ++ later)
    obtain ⟨skipped, split⟩ := suffix
    obtain ⟨closed, isClosed, -⟩ :=
      exists_splitFirst (by decide : "\x7d\x7d".toList ≠ []) (skipped ++ expr) later
    rw [show skipped ++ expr ++ "\x7d\x7d".toList ++ later =
      opened.2 by simpa using split] at isClosed
    change (splitFirst _ _).bind _ = _ at none
    rw [isOpened, bind_some, isClosed] at none
    cases none
  | case2 text emitted rest found ih =>
    obtain ⟨⟨expressions, unread, unclosed⟩, texts, isSource, replaced, isRewritten⟩ := ih
    obtain ⟨⟨before, after⟩, opened, closing⟩ := bind_eq_some_iff.mp found
    obtain ⟨⟨expr, later⟩, closed, same⟩ := map_eq_some_iff.mp closing
    obtain ⟨rfl, rfl⟩ := Prod.mk.inj same
    dsimp only at closed isSource isRewritten
    have opens := not_infix_of_splitFirst ['$', '\x7b'] '\x7b' opened
    have closes := not_infix_of_splitFirst ['\x7d'] '\x7d' closed
    refine ⟨⟨⟨before, expr, opens, closes⟩ :: expressions, unread, unclosed⟩,
      referenceText secrets env expr :: texts, ?_, .cons (replaced_referenceText ..) replaced, ?_⟩
    · rw [eq_append_of_splitFirst opened, eq_append_of_splitFirst closed, ← isSource]
      simp [Template.source]
    · rw [Text.Rewriter.rewrite_of_some found, isRewritten]
      simp

/-- **There is no other way to replace the expressions of a text.** -/
theorem interpolated_iff {secrets env : EnvMap} {text output : List Char} :
    Interpolated secrets.get env.get text output ↔
    output = (references secrets env).rewrite text := by
  refine ⟨?_, fun same => same ▸ interpolated_rewrite secrets env text⟩
  rintro ⟨⟨expressions, rest, unclosed⟩, texts, rfl, replaced, rfl⟩
  dsimp only at replaced ⊢
  induction replaced with
  | nil =>
    symm
    refine Text.Rewriter.rewrite_of_none (Option.bind_eq_none_iff.mpr fun opened isOpened => ?_)
    rw [Option.map_eq_none_iff]
    exact splitFirst_eq_none (unclosed _ _ (eq_append_of_splitFirst isOpened))
  | @cons part put expressions texts isPut _ ih =>
    have isText : put = referenceText secrets env part.expr := by
      rcases isPut, replaced_referenceText secrets env part.expr with
        ⟨⟨value, stands, rfl⟩ | ⟨unresolved, rfl⟩, ⟨value', stands', same⟩ | ⟨unresolved', same⟩⟩
      · rw [same, Option.some.inj ((resolveReference_eq_some_iff.mpr stands).symm.trans
          (resolveReference_eq_some_iff.mpr stands'))]
      · exact absurd stands (unresolved' value)
      · exact absurd stands' (unresolved value')
      · exact same.symm
    set later := Template.source ⟨expressions, rest, unclosed⟩ with isLater
    have opened := splitFirst_append ['$', '\x7b'] '\x7b' part.opens
      (part.expr ++ "\x7d\x7d".toList ++ later)
    have closed := splitFirst_append ['\x7d'] '\x7d' part.closes later
    have isSource : Template.source ⟨part :: expressions, rest, unclosed⟩ =
        part.before ++ ['$', '\x7b', '\x7b'] ++ (part.expr ++ ['\x7d', '\x7d'] ++ later) := by
      simp [isLater, Template.source]
    have found :
        (references secrets env).next (Template.source ⟨part :: expressions, rest, unclosed⟩) =
        some (part.before ++ put, later) := by
      rw [isSource, isText]
      exact bind_eq_some_iff.mpr ⟨_, opened, map_eq_some_iff.mpr ⟨_, closed, rfl⟩⟩
    rw [Text.Rewriter.rewrite_of_some found, ← ih]
    simp

/-- **Interpolation.** The text before, between and after the expressions is kept; each expression
is replaced by the value it stands for, or stays as it is. -/
theorem exists_interpolate_eq (input : String) (secrets env : EnvMap) :
    ∃ (template : Template) (texts : List (List Char)), template.source = input.toList ∧
      Forall₂ (fun part text => Replaced secrets.get env.get part.expr text) template.expressions
        texts ∧
      interpolate input secrets env = String.ofList ((zipWith (fun part text => part.before ++ text)
        template.expressions texts).flatten ++ template.rest) := by
  obtain ⟨template, texts, isSource, replaced, isRewritten⟩ :=
    interpolated_rewrite secrets env input.toList
  exact ⟨template, texts, isSource, replaced, by rw [interpolate, isRewritten]⟩

/-- Blanks do not matter, an unknown name stays, and a value is not read again. -/
example :
    interpolate "$\x7b\x7b secrets.KEY \x7d\x7d-$\x7b\x7benv.NO\x7d\x7d-$\x7b\x7benv. DIR\x7d\x7d"
    ⟨[("KEY", "$\x7b\x7benv.DIR\x7d\x7d")], by decide⟩ ⟨[("DIR", "/srv")], by decide⟩ =
      "$\x7b\x7benv.DIR\x7d\x7d-$\x7b\x7benv.NO\x7d\x7d-/srv" := by
  decide +kernel

/-! ### The environment -/

def EnvVar.interpolated (secrets env : EnvMap) (var : EnvVar) : EnvVar :=
  { var with value := interpolate var.value secrets env }

theorem EnvVar.name_interpolated (secrets env : EnvMap) (var : EnvVar) :
    (var.interpolated secrets env).name = var.name := rfl

abbrev EnvTable := Table name

def EnvMap.vars (env : EnvMap) : List EnvVar := env.rows.map fun entry => ⟨entry.1, entry.2⟩

/-- The entries of a map, pushed one after the other. -/
def EnvMap.toTable (env : EnvMap) : EnvTable where
  rows := env.vars
  nodup := by
    unfold EnvMap.vars
    rw [List.map_map]
    exact env.nodup

/-- The map the variables are collected into. -/
def EnvTable.toMap (env : EnvTable) : EnvMap where
  rows := env.rows.map fun var => (var.name, var.value)
  nodup := by
    rw [List.map_map]
    exact env.nodup

/-- `ref_name.replace("refs/heads/", "")`: every occurrence is taken out. -/
def branchOf (refName : String) : String :=
  String.ofList ((replacing "refs/heads/".toList (by decide) []).rewrite refName.toList)

def builtinVars (run : PipelineRun) (nameKey nameVal : String) : List EnvVar :=
  [⟨"PIPELINE_RUN_ID", run.id⟩, ⟨"PIPELINE_REF", run.refName⟩, ⟨"PIPELINE_SHA", run.commitSha⟩,
    ⟨"PIPELINE_BRANCH", branchOf run.refName⟩, ⟨"PIPELINE_EVENT", triggerEventStr run.trigger⟩,
    ⟨nameKey, nameVal⟩]

/-- A variable that is set only if there is a value for it. -/
def optionalVar (name : String) (value : Option String) : List EnvVar :=
  value.toList.map fun value => ⟨name, value⟩

section Environment

variable (pipelineEnv itemEnv : EnvMap) (run : PipelineRun) (nameKey nameVal : String)
  (cloneUrl registryUrl registryToken : Option String)

def assembleEnv : EnvTable :=
  pipelineEnv.toTable
    |>.upsertAll itemEnv.vars
    |>.upsertAll run.envVars.vars
    |>.upsertAll (builtinVars run nameKey nameVal)
    |>.upsertAll (optionalVar "PIPELINE_CLONE_URL" cloneUrl)
    |>.upsertAll (optionalVar "MULI_REGISTRY_URL" registryUrl)
    |>.upsertAll (optionalVar "MULI_REGISTRY_TOKEN" registryToken)

/-- **The environment of a job:** pipeline, item, run, built-ins, with all values interpolated. -/
def buildEnvVars : EnvTable :=
  let env := assembleEnv pipelineEnv itemEnv run nameKey nameVal cloneUrl registryUrl registryToken
  env.map (interpolated run.envVars env.toMap) (name_interpolated _ _)

/-- All definitions of variables, in the order in which they take effect. -/
def envDefinitions : List EnvVar :=
  pipelineEnv.vars ++ itemEnv.vars ++ run.envVars.vars ++ builtinVars run nameKey nameVal ++
    optionalVar "PIPELINE_CLONE_URL" cloneUrl ++ optionalVar "MULI_REGISTRY_URL" registryUrl ++
    optionalVar "MULI_REGISTRY_TOKEN" registryToken

def lastDefinition (definitions : List EnvVar) (name : String) : Option EnvVar :=
  definitions.reverse.find? fun var => var.name = name

theorem find_assembleEnv (name : String) :
    (assembleEnv pipelineEnv itemEnv run nameKey nameVal cloneUrl registryUrl registryToken).find
    name =
      lastDefinition (envDefinitions pipelineEnv itemEnv run nameKey nameVal cloneUrl registryUrl
        registryToken) name := by
  have base : pipelineEnv.toTable.find name = pipelineEnv.vars.reverse.find? fun var =>
      var.name = name := (find?_reverse_rows pipelineEnv.toTable name).symm
  unfold assembleEnv envDefinitions lastDefinition
  simp only [find_upsertAll, base, reverse_append, find?_append]

/-- **A job has the last definition of each name, interpolated, and no other variable.** -/
theorem find_buildEnvVars (name : String) :
    (buildEnvVars pipelineEnv itemEnv run nameKey nameVal cloneUrl registryUrl registryToken).find
    name =
      (lastDefinition (envDefinitions pipelineEnv itemEnv run nameKey nameVal cloneUrl registryUrl
        registryToken) name).map (interpolated run.envVars (assembleEnv pipelineEnv itemEnv run
          nameKey nameVal cloneUrl registryUrl registryToken).toMap) := by
  unfold buildEnvVars
  rw [find_map, find_assembleEnv]

/-- The variables that are set for every job of the run. -/
def builtinValue (name : String) : Option String :=
  match name with
  | "PIPELINE_RUN_ID" => some run.id
  | "PIPELINE_REF" => some run.refName
  | "PIPELINE_SHA" => some run.commitSha
  | "PIPELINE_BRANCH" => some (branchOf run.refName)
  | "PIPELINE_EVENT" => some (triggerEventStr run.trigger)
  | _ => none

/-- The variables with values of this job: the registry, the clone URL and the name of the job. -/
def specialValue (name : String) : Option String :=
  (if name = "MULI_REGISTRY_TOKEN" then registryToken else none)
    |>.or (if name = "MULI_REGISTRY_URL" then registryUrl else none)
    |>.or (if name = "PIPELINE_CLONE_URL" then cloneUrl else none)
    |>.or (if name = nameKey then some nameVal else builtinValue run name)

/-- The value of a name in the source of the highest priority that defines it. -/
def rawValue (name : String) : Option String :=
  specialValue run nameKey nameVal cloneUrl registryUrl registryToken name
    |>.or (run.envVars.get name)
    |>.or (itemEnv.get name)
    |>.or (pipelineEnv.get name)

theorem value_find_builtinVars (name : String) :
    ((builtinVars run nameKey nameVal).reverse.find? fun var => var.name = name).map EnvVar.value =
      if name = nameKey then some nameVal else builtinValue run name := by
  unfold builtinVars builtinValue
  by_cases isName : name = nameKey
  · simp [isName]
  · rw [if_neg isName]
    split <;> grind

theorem value_find_optionalVar (key : String) (given : Option String) (name : String) :
    ((optionalVar key given).reverse.find? fun var => var.name = name).map EnvVar.value =
      if name = key then given else none := by
  cases given with
  | none => simp [optionalVar]
  | some value => by_cases isKey : name = key <;> simp [optionalVar, isKey, eq_comm]

omit run in
theorem value_find_vars (env : EnvMap) (name : String) :
    (env.vars.reverse.find? fun var => var.name = name).map EnvVar.value = env.get name := by
  have last := find?_reverse_rows env.toTable name
  rw [show env.vars = env.toTable.rows from rfl, last, EnvMap.get, find]
  show (find? _ (env.rows.map _)).map _ = _
  rw [List.find?_map, Option.map_map]
  rfl

theorem value_lastDefinition (name : String) :
    (lastDefinition (envDefinitions pipelineEnv itemEnv run nameKey nameVal cloneUrl registryUrl
      registryToken) name).map value =
        rawValue pipelineEnv itemEnv run nameKey nameVal cloneUrl registryUrl registryToken
        name := by
  unfold rawValue specialValue lastDefinition envDefinitions
  simp only [append_assoc, reverse_append, find?_append, Option.map_or, value_find_vars,
    value_find_builtinVars, value_find_optionalVar, Option.or_assoc]

/-- References to variables are looked up among the values before interpolation. -/
theorem get_assembleEnv :
    (assembleEnv pipelineEnv itemEnv run nameKey nameVal cloneUrl registryUrl
      registryToken).toMap.get =
      rawValue pipelineEnv itemEnv run nameKey nameVal cloneUrl registryUrl registryToken := by
  funext name
  rw [← value_lastDefinition, ← find_assembleEnv, EnvMap.get, find, EnvTable.toMap, List.find?_map,
    Option.map_map]
  rfl

theorem value_buildEnvVars (name : String) :
    ((buildEnvVars pipelineEnv itemEnv run nameKey nameVal cloneUrl registryUrl registryToken).find
      name).map value =
      (rawValue pipelineEnv itemEnv run nameKey nameVal cloneUrl registryUrl registryToken name).map
        fun raw => interpolate raw run.envVars (assembleEnv pipelineEnv itemEnv run nameKey nameVal
          cloneUrl registryUrl registryToken).toMap := by
  rw [← value_lastDefinition, find_buildEnvVars, Option.map_map, Option.map_map]
  rfl

/-- **Each name once, with the interpolated value of the source of the highest priority;**
references are resolved in the secrets of the run and in the values before interpolation. -/
theorem buildEnvVars_priority :
    ((buildEnvVars pipelineEnv itemEnv run nameKey nameVal cloneUrl registryUrl
      registryToken).rows.map name).Nodup ∧
    ∀ name, Option.Rel (fun raw value =>
      Interpolated run.envVars.get (rawValue pipelineEnv itemEnv run
        nameKey nameVal cloneUrl registryUrl registryToken) raw.toList value.toList)
      (rawValue pipelineEnv itemEnv run nameKey nameVal cloneUrl registryUrl registryToken name)
      (((buildEnvVars pipelineEnv itemEnv run nameKey nameVal cloneUrl registryUrl
        registryToken).find name).map value) := by
  refine ⟨nodup _, fun name => ?_⟩
  rw [value_buildEnvVars, ← get_assembleEnv]
  cases (assembleEnv pipelineEnv itemEnv run nameKey nameVal cloneUrl registryUrl
      registryToken).toMap.get name with
  | none => exact .none
  | some raw =>
    refine .some ?_
    show Interpolated _ _ _ (String.ofList _).toList
    rw [String.toList_ofList]
    exact interpolated_rewrite ..

end Environment

/-! ### The branch of a run -/

/-- The branch in the texts of a release. -/
def releaseBranch (run : PipelineRun) : String := (afterStart "refs/heads/" run.refName).getD ""

/-- What is documented: the name of a branch, nothing for any other reference. -/
def documentedBranch (refName : String) : String := (afterStart "refs/heads/" refName).getD ""

theorem interpolated_of_plain {text : List Char} (plain : ¬ "$\x7b\x7b".toList <:+: text) :
    Interpolated secrets env text text := by
  refine ⟨⟨[], text, ?_⟩, [], rfl, .nil, rfl⟩
  rintro before after rfl
  exact absurd ⟨before, after, rfl⟩ plain

theorem branchOf_eq_documentedBranch_iff : branchOf refName = documentedBranch refName ↔
    refName = "" ∨ ∃ name, refName.toList = "refs/heads/".toList ++ name ∧
    ¬ "refs/heads/".toList <:+: name := by
  unfold branchOf documentedBranch afterStart
  by_cases starts : "refs/heads/".toList <+: refName.toList
  · obtain ⟨name, split⟩ := starts
    have nonempty : refName ≠ "" := by
      rintro rfl
      cases split
    have rest : ("refs/heads/".toList ++ name).drop "refs/heads/".length = name := rfl
    rw [if_pos ⟨name, split⟩, ← split, rewrite_replacing_append, Option.getD_some,
      String.ofList_inj,
      List.nil_append, rest, rewrite_replacing_eq_self_iff, or_iff_right nonempty]
    simp
  · have noName : ¬ ∃ name, refName.toList = "refs/heads/".toList ++ name ∧
        ¬ "refs/heads/".toList <:+: name :=
      fun ⟨name, split, _⟩ => starts ⟨name, split.symm⟩
    rw [if_neg starts, or_iff_left noName, Option.getD_none, ← String.toList_inj,
      ← String.toList_inj, String.toList_ofList]
    cases isList : refName.toList with
    | nil => simp
    | cons c rest =>
      rw [isList] at starts
      rw [rewrite_replacing_cons starts]
      simp

def JobDef.effectiveImage (job : JobDef) (pipelineImage : Option String) : Option String :=
  job.image.or pipelineImage

def JobDef.artifactUploadPaths (job : JobDef) : List String :=
  match job.artifacts with
  | none => []
  | some artifacts =>
    if artifacts.paths ≠ [] then artifacts.paths
    else (artifacts.upload.map ArtifactUploadDef.paths).getD []

def JobDef.executionSubsteps (job : JobDef) : List JobStepDef :=
  if job.steps.isEmpty then [{ name := "Commands", commands := job.commands }]
  else if job.commands.isEmpty then job.steps
  else { name := "Preparation", commands := job.commands } :: job.steps

/-- The steps of a job as the parser accepts them. -/
def checkJobSteps (jobName : String) : List String → List JobStepDef → Except MuliError Unit
  | _, [] => .ok ()
  | seen, step :: steps =>
    if trim step.name = "" then
      yamlError ("job '" ++ jobName ++ "' contains a step with an empty name")
    else if step.commands.isEmpty then
      yamlError ("job '" ++ jobName ++ "' step '" ++ step.name ++
        "' must define at least one command")
    else if step.name ∈ seen then
      yamlError ("job '" ++ jobName ++ "' contains duplicate step name '" ++ step.name ++ "'")
    else checkJobSteps jobName (step.name :: seen) steps

def checkJob (pipelineImage : Option String) (jobNames : List String) (jobName : String)
    (job : JobDef) : Except MuliError Unit :=
  if (job.effectiveImage pipelineImage).isNone then
    yamlError ("job '" ++ jobName ++ "' must specify an image (or set a pipeline-level image)")
  else
    match job.needs.find? (· ∉ jobNames) with
    | some dep => yamlError ("job '" ++ jobName ++ "' needs unknown job '" ++ dep ++ "'")
    | none =>
      if job.commands.isEmpty && job.steps.isEmpty then
        yamlError ("job '" ++ jobName ++ "' must define commands or steps")
      else checkJobSteps jobName [] job.steps

theorem checkUnique_of_checkJobSteps (ok : checkJobSteps jobName seen steps = .ok ()) :
    checkUnique seen (steps.map JobStepDef.name) = .ok () := by
  induction steps generalizing seen with
  | nil => rfl
  | cons step steps ih =>
    rw [checkJobSteps] at ok
    grind [checkUnique, yamlError]

/-- **The substeps of an accepted job have different names exactly if no step of a job with commands
is named like the substep of the commands.** -/
theorem substeps_distinct_iff (accepted : checkJob pipelineImage jobNames jobName job = .ok ()) :
    (job.executionSubsteps.map JobStepDef.name).Nodup ↔
      job.commands = [] ∨ "Preparation" ∉ job.steps.map JobStepDef.name := by
  have ok : checkJobSteps jobName [] job.steps = .ok () := by grind [checkJob, yamlError]
  have distinct := (nodup_of_checkUnique (checkUnique_of_checkJobSteps ok)).1
  unfold JobDef.executionSubsteps
  split_ifs with noSteps noCommands
  · simp_all
  · simp_all
  · have some : job.commands ≠ [] := by simpa using noCommands
    rw [map_cons, nodup_cons, and_iff_left distinct, or_iff_right some]

def jobWithStep (step : String) : JobDef :=
  { image := "alpine", commands := ["make"], steps := [⟨step, ["make"]⟩] }

theorem substeps_distinct_build :
    ((jobWithStep "build").executionSubsteps.map JobStepDef.name).Nodup := by
  have accepted : checkJob none [] "job" (jobWithStep "build") = .ok () := by decide
  exact (substeps_distinct_iff accepted).mpr (by decide)

/-- **A step may be named like the substep of the commands.** -/
theorem substeps_equal_preparation : checkJob none [] "job" (jobWithStep "Preparation") = .ok () ∧
    (jobWithStep "Preparation").executionSubsteps.map JobStepDef.name =
    ["Preparation", "Preparation"] := by
  decide

def resolveResources (resources : Option ResourceDef) (timeout : Option ℕ) : String × String × ℕ :=
  ((resources.bind ResourceDef.cpu).getD "1000m", (resources.bind ResourceDef.memory).getD "512Mi",
    timeout.getD 1800)

def makeResourceSpec (cpu memory : String) (timeout : ℕ) : ResourceSpec where
  cpuRequest := cpu
  cpuLimit := cpu
  memoryRequest := memory
  memoryLimit := memory
  timeoutSeconds := timeout

/-- The registry token a job receives: only one that opted into `registry: write` gets it. -/
def jobRegistryToken (job : JobDef) (registryToken : Option String) : Option String :=
  match job.registry with
  | some .write => registryToken
  | _ => none

section Builders

variable (run : PipelineRun) (pipeline : PipelineDef)
    (cloneUrl registryUrl registryToken : Option String)

/-- The environment of a job in jobs mode; the checkout is made by the engine. -/
def jobEnv (jobName : String) (job : JobDef) : EnvTable :=
  buildEnvVars pipeline.env job.env run "PIPELINE_JOB_NAME" jobName none registryUrl
    (jobRegistryToken job registryToken)

def stepEnv (step : StepDef) : EnvTable :=
  buildEnvVars pipeline.env step.env run "PIPELINE_STEP_NAME" step.name cloneUrl registryUrl
    registryToken

/-- The artifacts a job restores: those of the jobs it needs that upload some. -/
def artifactDownloads (job : JobDef) : List ArtifactDownload :=
  job.needs.filterMap fun needed =>
    (pipeline.jobs.lookup needed).bind fun neededDef =>
      if neededDef.artifactUploadPaths.isEmpty then none else some ⟨run.id, needed⟩

/-- The job of a definition in jobs mode. -/
def buildJobFromJobdef (jobName : String) (job : JobDef) (stepRun : StepRun) : JobSpec :=
  let envVars := jobEnv run pipeline registryUrl registryToken jobName job
  let (cpu, memory, timeout) := resolveResources job.resources job.timeout
  { deploymentId := run.id
    projectId := run.repoId
    workspaceId := run.tenantId
    tenantId := run.tenantId
    runnerImage := (job.effectiveImage pipeline.image).getD "alpine:latest"
    envVars := envVars.rows
    resources := makeResourceSpec cpu memory timeout
    priorityTier := .standard
    framework := "pipeline"
    idempotencyKey := none
    registryCredentials := none
    commands := []
    substeps := job.executionSubsteps.map fun step =>
      ⟨step.name, step.commands.map fun cmd => interpolate cmd run.envVars envVars.toMap⟩
    checkout := cloneUrl.map fun url => ⟨url, run.commitSha, pipeline.checkout.submodules⟩
    artifactDownloads := artifactDownloads run pipeline job
    artifactUploadPaths := job.artifactUploadPaths
    artifactUploadKey := if job.artifactUploadPaths.isEmpty then none else some jobName
    pipelineStepRunId := some stepRun.id }

/-- The job of a definition in steps mode, which clones the repository itself. -/
def buildJob (step : StepDef) (stepRun : StepRun) : JobSpec :=
  let envVars := stepEnv run pipeline cloneUrl registryUrl registryToken step
  let (cpu, memory, timeout) := resolveResources step.resources step.timeout
  let clone := if cloneUrl.isSome then
    ["git clone \"$PIPELINE_CLONE_URL\" /workspace && cd /workspace && git checkout \"$PIPELINE_SHA\""]
    else []
  { deploymentId := run.id
    projectId := run.repoId
    workspaceId := run.tenantId
    tenantId := run.tenantId
    runnerImage := step.image
    envVars := envVars.rows
    resources := makeResourceSpec cpu memory timeout
    priorityTier := .standard
    framework := "pipeline"
    idempotencyKey := none
    registryCredentials := none
    commands := clone ++ step.commands.map fun cmd => interpolate cmd run.envVars envVars.toMap
    substeps := []
    checkout := none
    artifactDownloads := []
    artifactUploadPaths := []
    artifactUploadKey := none
    pipelineStepRunId := some stepRun.id }

end Builders

/-! ### The job of a step run -/

structure JobContext where
  cloneUrl : Option String := none
  registryUrl : Option String := none
  registryToken : Option String := none
deriving DecidableEq, Repr

namespace JobContext

variable (context : JobContext) (pipeline : PipelineDef) (run : PipelineRun) (orig : String)

/-- **The job built for a step run** from the definition it is assigned to, in either format; no job
is built for a name that is not declared. -/
def jobSpec (stepRun : StepRun) : JobSpec :=
  let undeclared : JobSpec := { tenantId := run.tenantId, priorityTier := .standard }
  if pipeline.jobsMode then
    ((pipeline.jobs.lookup orig).map fun job => buildJobFromJobdef run pipeline context.cloneUrl
      context.registryUrl context.registryToken orig job stepRun).getD undeclared
  else
    ((pipeline.steps.reverse.find? fun step => step.name = orig).map fun step =>
      buildJob run pipeline context.cloneUrl context.registryUrl context.registryToken step
        stepRun).getD undeclared

end JobContext

/-! ### The registry token -/

def PipelineDef.wantsRegistryWrite (pipeline : PipelineDef) : Bool :=
  pipeline.jobs.any fun job => job.2.registry = some .write

/-- What a run is executed with: `minted` is what a request for a registry token gave, a URL and a
token, which is made only for a pipeline that wants one. -/
def runContext (pipeline : PipelineDef) (cloneUrl : Option String)
    (minted : Option String × Option String) : JobContext :=
  if pipeline.wantsRegistryWrite then ⟨cloneUrl, minted.1, minted.2⟩ else ⟨cloneUrl, none, none⟩

/-- The definition with a name asks for registry write access; steps cannot. -/
def PipelineDef.AsksWrite (pipeline : PipelineDef) (orig : String) : Prop :=
  ∃ job, pipeline.jobs.lookup orig = some job ∧ job.registry = some .write

theorem jobRegistryToken_of_ne (noWrite : job.registry ≠ some .write) (token : Option String) :
    jobRegistryToken job token = none := by
  unfold jobRegistryToken
  split
  · contradiction
  · rfl

theorem buildJobFromJobdef_of_ne (noWrite : job.registry ≠ some .write) (run : PipelineRun)
    (pipeline : PipelineDef) (cloneUrl registryUrl token : Option String) (jobName : String)
    (stepRun : StepRun) :
    buildJobFromJobdef run pipeline cloneUrl registryUrl token jobName job stepRun =
      buildJobFromJobdef run pipeline cloneUrl registryUrl none jobName job stepRun := by
  unfold buildJobFromJobdef jobEnv
  rw [jobRegistryToken_of_ne noWrite, jobRegistryToken_of_ne noWrite]

theorem wantsRegistryWrite_of_steps {pipeline : PipelineDef} (steps : ¬ pipeline.jobsMode) :
    pipeline.wantsRegistryWrite = false := by
  have noJobs : pipeline.jobs = [] := by simpa [PipelineDef.jobsMode] using steps
  unfold PipelineDef.wantsRegistryWrite
  rw [noJobs]
  rfl

/-- **A job that did not ask for registry write access is the same for any two registry tokens:** as
its builder makes it, and as it is made in a run of the pipeline, in either format. -/
theorem registryToken_unseen (pipeline : PipelineDef) (run : PipelineRun)
    (cloneUrl registryUrl token token' : Option String) (stepRun : StepRun) :
    (∀ jobName (job : JobDef), job.registry ≠ some .write →
      buildJobFromJobdef run pipeline cloneUrl registryUrl token jobName job stepRun =
        buildJobFromJobdef run pipeline cloneUrl registryUrl token' jobName job stepRun) ∧
    ∀ orig, ¬ pipeline.AsksWrite orig →
      (runContext pipeline cloneUrl (registryUrl, token)).jobSpec pipeline run orig stepRun =
        (runContext pipeline cloneUrl (registryUrl, token')).jobSpec pipeline run orig stepRun := by
  have unseen : ∀ jobName (job : JobDef), job.registry ≠ some .write →
      buildJobFromJobdef run pipeline cloneUrl registryUrl token jobName job stepRun =
        buildJobFromJobdef run pipeline cloneUrl registryUrl token' jobName job stepRun := by
    intro jobName job noWrite
    rw [buildJobFromJobdef_of_ne noWrite run pipeline cloneUrl registryUrl token,
      buildJobFromJobdef_of_ne noWrite run pipeline cloneUrl registryUrl token']
  refine ⟨unseen, fun orig noWrite => ?_⟩
  unfold runContext
  cases wants : pipeline.wantsRegistryWrite with
  | false => rw [if_neg Bool.false_ne_true, if_neg Bool.false_ne_true]
  | true =>
    have jobs : pipeline.jobsMode := by
      by_contra steps
      rw [wantsRegistryWrite_of_steps steps] at wants
      cases wants
    simp only [JobContext.jobSpec, jobs, if_true]
    cases declared : pipeline.jobs.lookup orig with
    | none => simp only [map_none]
    | some job =>
      exact unseen orig job fun write => noWrite ⟨job, declared, write⟩

def publishing : PipelineDef where
  jobs := [("publish", { registry := some .write }),
    ("build",
      { registry := some .read, commands := ["echo $\x7b\x7b env.MULI_REGISTRY_TOKEN \x7d\x7d"] })]
  jobsNodup := by decide
  steps := []

def publishingRun : PipelineRun :=
  PipelineRun.new "run" 0 "pipeline" "tenant" "repo" 1 "sha" "refs/heads/main" (.manual "user") ""

def publishingSpec (token orig : String) : JobSpec :=
  (runContext publishing none (some "registry", some token)).jobSpec publishing publishingRun orig
    (StepRun.new orig 0 "run" orig .stop)

/-- The build does not see the token that the publishing job of the same run receives. -/
theorem registryToken_unseen_build : ¬ publishing.AsksWrite "build" ∧
      publishingSpec "first" "build" = publishingSpec "second" "build" ∧
      (publishingSpec "first" "publish").envVars.getLast? =
      some ⟨"MULI_REGISTRY_TOKEN", "first"⟩ := by
  have noWrite : ¬ publishing.AsksWrite "build" := by
    rintro ⟨job, declared, write⟩
    cases declared
    cases write
  have unseen := registryToken_unseen publishing publishingRun none (some "registry") (some "first")
    (some "second") (.new "build" 0 "run" "build" .stop)
  exact ⟨noWrite, unseen.2 "build" noWrite, by decide +kernel⟩

/-- The branch that the build of a run sees. -/
def seenBranch (run : PipelineRun) : Option String :=
  ((buildEnvVars publishing.env publishing.env run "PIPELINE_JOB_NAME" "build" none none none).find
    "PIPELINE_BRANCH").map EnvVar.value

end Muli
