import Mathlib.Data.List.Induction
import Provenance.CommandLine.Arguments
import Provenance.Proofs.MapEntries
import Provenance.Proofs.Outcomes

/-! The order of command-line arguments. Arguments are read in groups: a positional, a flag, or an
option together with the value behind it. What they come to is said by the positionals in
their order, by the last value of each option and by the flags that occur, so groups of
different kinds may change places. -/

namespace Provenance.CommandLine

inductive Flag where
  | verbose (short : Bool)
  | flow
  deriving DecidableEq

def Flag.spelling : Flag → String
  | .verbose false => "--verbose"
  | .verbose true => "-v"
  | .flow => "--flow"

def ValuedOption.spelling : ValuedOption → String
  | .config => "--config"
  | .output => "--output"
  | .schema => "--schema"
  | .parts => "--parts"
  | .references => "--refs"

/-- Arguments that are read together. The value of an option may be any text. -/
inductive Group where
  | positional (text : String) (plain : text.toList.head? ≠ some '-')
  | switch (flag : Flag)
  | valued (option : ValuedOption) (value : String)
  deriving DecidableEq

namespace Group

def arguments : Group → List String
  | positional text _ => [text]
  | switch flag => [flag.spelling]
  | valued option value => [option.spelling, value]

@[simp] def positional? : Group → Option String
  | positional text _ => some text
  | _ => none

@[simp] def value? (option : ValuedOption) : Group → Option String
  | valued other value => if other = option then some value else none
  | _ => none

end Group

def positionals (groups : List Group) : List String := groups.filterMap Group.positional?

/-- The values that an option is given, in order. -/
def values (option : ValuedOption) (groups : List Group) : List String := groups.filterMap (Group.value? option)

/-- Every text lists categories, and the last text counts. -/
def LastListed (texts : List String) (listed : List Category) : Prop :=
  ∃ lists, texts.mapM categories = .ok lists ∧ listed = lists.getLast?.getD []

/-- What groups say, wherever those of other kinds stand. -/
structure Described (groups : List Group) (o : Options) : Prop where
  positional : o.positional = positionals groups
  config : o.config = (values .config groups).getLast?
  output : o.output = (values .output groups).getLast?
  schema : o.schema = (values .schema groups).getLast?
  parts : LastListed (values .parts groups) o.parts
  references : LastListed (values .references groups) o.references
  writeFlow : o.writeFlow = true ↔ .switch .flow ∈ groups
  verbose : o.verbose = true ↔ ∃ short, .switch (.verbose short) ∈ groups

/-- Groups in another order, in which the positionals and the values of each option keep theirs. -/
structure Reordered (groups others : List Group) : Prop where
  perm : groups.Perm others
  positionals : positionals groups = positionals others
  values : ∀ option, values option groups = values option others

variable {groups others : List Group} {group other : Group} {o before after : Options} {option : ValuedOption}
  {arguments rest rest' : List String}

private theorem ofArgument?_eq_some {argument : String} :
    ValuedOption.ofArgument? argument = some option ↔ argument = option.spelling := by
  constructor
  · intro found
    have listed := Entries.mem_of_get? found
    simp only [List.mem_cons, Prod.mk.injEq, List.not_mem_nil, or_false] at listed
    rcases listed with ⟨rfl, rfl⟩ | ⟨rfl, rfl⟩ | ⟨rfl, rfl⟩ | ⟨rfl, rfl⟩ | ⟨rfl, rfl⟩ <;> rfl
  · rintro rfl
    cases option <;> decide

private theorem ValuedOption.spelling_dashed (option : ValuedOption) : option.spelling.toList.head? = some '-' := by
  cases option <;> decide

private theorem Flag.spelling_dashed (flag : Flag) : flag.spelling.toList.head? = some '-' := by
  rcases flag with ⟨_ | _⟩ | _ <;> decide

private theorem Flag.spelling_ne (flag : Flag) (option : ValuedOption) : flag.spelling ≠ option.spelling := by
  rcases flag with ⟨_ | _⟩ | _ <;> cases option <;> decide

theorem Flag.spelling_injective : Function.Injective Flag.spelling := by
  intro flag other
  rcases flag with ⟨_ | _⟩ | _ <;> rcases other with ⟨_ | _⟩ | _ <;> decide

theorem ValuedOption.spelling_injective : Function.Injective ValuedOption.spelling := by
  intro option other same
  have read := ofArgument?_eq_some.2 same
  rw [ofArgument?_eq_some.2 rfl] at read
  exact Option.some.inj read

/-- How arguments begin tells their first group. -/
private theorem Group.arguments_inj (same : group.arguments ++ rest = other.arguments ++ rest') :
    group = other ∧ rest = rest' := by
  cases group with
  | positional text plain =>
    cases other with
    | positional text' plain' =>
      obtain ⟨rfl, later⟩ := List.cons.inj same
      exact ⟨rfl, later⟩
    | switch flag => exact absurd ((List.cons.inj same).1 ▸ flag.spelling_dashed) plain
    | valued option value => exact absurd ((List.cons.inj same).1 ▸ option.spelling_dashed) plain
  | switch flag =>
    cases other with
    | positional text plain => exact absurd ((List.cons.inj same).1 ▸ flag.spelling_dashed) plain
    | switch flag' =>
      obtain ⟨first, later⟩ := List.cons.inj same
      exact ⟨congrArg switch (Flag.spelling_injective first), later⟩
    | valued option value => exact absurd (List.cons.inj same).1 (flag.spelling_ne option)
  | valued option value =>
    cases other with
    | positional text plain => exact absurd ((List.cons.inj same).1 ▸ option.spelling_dashed) plain
    | switch flag => exact absurd (List.cons.inj same).1.symm (flag.spelling_ne option)
    | valued option' value' =>
      obtain ⟨first, later⟩ := List.cons.inj same
      obtain ⟨rfl, rest⟩ := List.cons.inj later
      exact ⟨by rw [ValuedOption.spelling_injective first], rest⟩

/-- Arguments are split into groups in one way. -/
theorem groups_unique (same : groups.flatMap Group.arguments = others.flatMap Group.arguments) : groups = others := by
  have inhabited : ∀ (group : Group) rest, group.arguments ++ rest ≠ [] := by
    intro group rest
    cases group <;> exact List.cons_ne_nil _ _
  induction groups generalizing others with
  | nil =>
    cases others with
    | nil => rfl
    | cons other others => exact absurd same.symm (inhabited other _)
  | cons group groups ih =>
    cases others with
    | nil => exact absurd same (inhabited group _)
    | cons other others =>
      obtain ⟨rfl, later⟩ := Group.arguments_inj same
      rw [ih later]

namespace Options

/-- Reads one group. -/
def take (o : Options) : Group → Except ArgumentFault Options
  | .positional text _ => .ok { o with positional := o.positional ++ [text] }
  | .switch (.verbose _) => .ok { o with verbose := true }
  | .switch .flow => .ok { o with writeFlow := true }
  | .valued option value => o.set option value

private theorem read_group : o.read (group.arguments ++ rest) = o.take group >>= (read · rest) := by
  cases group with
  | positional text plain =>
    have unlike : ∀ option : String, option.toList.head? = some '-' → text ≠ option :=
      fun option dashed same => plain (same ▸ dashed)
    have valueless : ValuedOption.ofArgument? text = none := by
      refine Option.eq_none_iff_forall_ne_some.2 fun option found => ?_
      exact unlike _ option.spelling_dashed (ofArgument?_eq_some.1 found)
    have help : isHelp text = false := by
      simp [isHelp, unlike "--help" (by decide), unlike "-h" (by decide)]
    have version : isVersion text = false := by
      simp [isVersion, unlike "--version" (by decide), unlike "-V" (by decide)]
    have verbose : isVerbose text = false := by
      simp [isVerbose, unlike "--verbose" (by decide), unlike "-v" (by decide)]
    rw [Group.arguments, List.singleton_append, read]
    simp only [help, version, verbose, unlike "--flow" (by decide), valueless, plain, Bool.false_eq_true, if_false]
    rfl
  | switch flag => rcases flag with ⟨_ | _⟩ | _ <;> rfl
  | valued option value => cases option <;> rfl

theorem read_groups : o.read (groups.flatMap Group.arguments ++ rest) = groups.foldlM take o >>= (read · rest) := by
  induction groups generalizing o with
  | nil => rfl
  | cons group groups ih =>
    rw [List.flatMap_cons, List.append_assoc, read_group, List.foldlM_cons, bind_assoc]
    simp only [ih]

/-- Arguments that are read to their end are groups. -/
theorem groups_of_read (done : o.read arguments = .ok (.options after)) :
    ∃ groups : List Group, arguments = groups.flatMap Group.arguments := by
  fun_induction read o arguments with
  | case1 => exact ⟨[], rfl⟩
  | case2 | case3 | case6 | case8 => cases done
  | case4 o argument rest _ _ verbose ih =>
    obtain ⟨groups, rfl⟩ := ih done
    simp only [isVerbose, Bool.or_eq_true, decide_eq_true_eq] at verbose
    rcases verbose with rfl | rfl
    · exact ⟨.switch (.verbose false) :: groups, rfl⟩
    · exact ⟨.switch (.verbose true) :: groups, rfl⟩
  | case5 o rest _ _ _ ih =>
    obtain ⟨groups, rfl⟩ := ih done
    exact ⟨.switch .flow :: groups, rfl⟩
  | case7 o argument _ _ _ _ option found value rest ih =>
    obtain ⟨next, _, later⟩ := Outcome.bind_eq_ok.1 done
    obtain ⟨groups, rfl⟩ := ih next later
    exact ⟨.valued option value :: groups, by rw [ofArgument?_eq_some.1 found]; rfl⟩
  | case9 o argument rest _ _ _ _ _ plain ih =>
    obtain ⟨groups, rfl⟩ := ih done
    exact ⟨.positional argument plain :: groups, rfl⟩

end Options

namespace LastListed

variable {texts : List String} {text : String} {listed earlier : List Category}

private theorem nil : LastListed [] [] := ⟨[], rfl, rfl⟩

private theorem concat (known : LastListed texts earlier) (read : categories text = .ok listed) :
    LastListed (texts ++ [text]) listed := by
  obtain ⟨lists, done, _⟩ := known
  refine ⟨lists ++ [listed], ?_, by rw [List.getLast?_concat, Option.getD_some]⟩
  rw [List.mapM_append, done, List.mapM_cons, List.mapM_nil, read]
  rfl

private theorem readable (known : LastListed texts listed) (member : text ∈ texts) :
    ∃ list, categories text = .ok list := by
  obtain ⟨lists, done, _⟩ := known
  obtain ⟨list, _, read⟩ := (Outcome.forall₂_partners (Outcome.mapM_eq_ok.1 done)).1 text member
  exact ⟨list, read⟩

private theorem unique (known : LastListed texts listed) (again : LastListed texts earlier) : listed = earlier := by
  obtain ⟨lists, done, rfl⟩ := known
  obtain ⟨others, done', rfl⟩ := again
  cases done.symm.trans done'
  rfl

end LastListed

@[simp] theorem positionals_concat :
    positionals (groups ++ [group]) = positionals groups ++ group.positional?.toList := by
  rw [positionals, List.filterMap_append]
  cases group <;> rfl

@[simp] theorem values_concat :
    values option (groups ++ [group]) = values option groups ++ (group.value? option).toList := by
  rw [values, List.filterMap_append, List.filterMap_cons]
  cases group.value? option <;> rfl

private theorem mem_values {text : String} : text ∈ values option groups ↔ .valued option text ∈ groups := by
  rw [values, List.mem_filterMap]
  constructor
  · rintro ⟨group, member, same⟩
    cases group with
    | positional | switch => cases same
    | valued other value =>
      obtain ⟨rfl, equal⟩ := Option.ite_none_right_eq_some.1 same
      exact Option.some.inj equal ▸ member
  · exact fun member => ⟨_, member, if_pos rfl⟩

/-- A group that can be read, whatever was read before it. -/
def Group.Readable : Group → Prop
  | valued .parts value | valued .references value => ∃ listed, categories value = .ok listed
  | _ => True

private theorem Group.Readable.take (readable : group.Readable) (before : Options) :
    ∃ after, before.take group = .ok after := by
  cases group with
  | positional text plain => exact ⟨_, rfl⟩
  | switch flag => cases flag <;> exact ⟨_, rfl⟩
  | valued option value =>
    cases option with
    | config | output | schema => exact ⟨_, rfl⟩
    | parts | references =>
      obtain ⟨listed, read⟩ := readable
      exact ⟨_, Outcome.bind_eq_ok.2 ⟨listed, read, rfl⟩⟩

private theorem run_of_readable (readable : ∀ group ∈ groups, group.Readable) (before : Options) :
    ∃ after, groups.foldlM Options.take before = .ok after := by
  induction groups generalizing before with
  | nil => exact ⟨before, rfl⟩
  | cons group groups ih =>
    obtain ⟨first, later⟩ := List.forall_mem_cons.1 readable
    obtain ⟨next, taken⟩ := first.take before
    obtain ⟨after, done⟩ := ih later next
    exact ⟨after, Outcome.bind_eq_ok.2 ⟨next, taken, done⟩⟩

namespace Described

private theorem empty : Described [] {} :=
  ⟨rfl, rfl, rfl, rfl, .nil, .nil, by simp, by simp⟩

/-- A group is told by the list of its own kind, and the other lists stay as they were. -/
private theorem take (described : Described groups before) (taken : before.take group = .ok after) :
    Described (groups ++ [group]) after := by
  obtain ⟨positional, config, output, schema, parts, references, writeFlow, verbose⟩ := described
  cases group with
  | positional text plain =>
    cases taken
    constructor <;> simp [*]
  | switch flag => cases flag <;> cases taken <;> constructor <;> simp [*]
  | valued option value =>
    cases option with
    | config | output | schema =>
      cases taken
      constructor <;> simp [*]
    | parts =>
      obtain ⟨listed, read, same⟩ := Outcome.bind_eq_ok.1 taken
      cases same
      constructor <;> simp [parts.concat read, *]
    | references =>
      obtain ⟨listed, read, same⟩ := Outcome.bind_eq_ok.1 taken
      cases same
      constructor <;> simp [references.concat read, *]

private theorem of_run (done : groups.foldlM Options.take {} = .ok o) : Described groups o := by
  induction groups using List.reverseRecOn generalizing o with
  | nil =>
    cases done
    exact empty
  | append_singleton groups group ih =>
    rw [List.foldlM_append] at done
    obtain ⟨before, earlier, last⟩ := Outcome.bind_eq_ok.1 done
    rw [List.foldlM_cons] at last
    obtain ⟨after, taken, same⟩ := Outcome.bind_eq_ok.1 last
    cases same
    exact (ih earlier).take taken

private theorem unique (described : Described groups before) (again : Described groups after) : before = after := by
  cases before
  cases after
  obtain ⟨positional, config, output, schema, parts, references, writeFlow, verbose⟩ := described
  obtain ⟨positional', config', output', schema', parts', references', writeFlow', verbose'⟩ := again
  rw [Options.mk.injEq]
  exact ⟨positional.trans positional'.symm, config.trans config'.symm, output.trans output'.symm,
    schema.trans schema'.symm, parts.unique parts', references.unique references',
    Bool.eq_iff_iff.2 (writeFlow.trans writeFlow'.symm), Bool.eq_iff_iff.2 (verbose.trans verbose'.symm)⟩

private theorem readable (described : Described groups o) (member : group ∈ groups) : group.Readable := by
  cases group with
  | positional | switch => trivial
  | valued option value =>
    cases option with
    | config | output | schema => trivial
    | parts => exact described.parts.readable (mem_values.2 member)
    | references => exact described.references.readable (mem_values.2 member)

private theorem iff_run : Described groups o ↔ groups.foldlM Options.take {} = .ok o := by
  refine ⟨fun described => ?_, of_run⟩
  obtain ⟨after, done⟩ := run_of_readable (fun group => described.readable) {}
  rw [described.unique (of_run done), done]

private theorem reordered (described : Described groups o) (reordered : Reordered groups others) :
    Described others o := by
  obtain ⟨perm, positionals, values⟩ := reordered
  obtain ⟨positional, config, output, schema, parts, references, writeFlow, verbose⟩ := described
  simp only [positionals, values, perm.mem_iff] at *
  exact ⟨positional, config, output, schema, parts, references, writeFlow, verbose⟩

end Described

theorem read_iff : Options.read {} arguments = .ok (.options o) ↔
    ∃ groups, arguments = groups.flatMap Group.arguments ∧ Described groups o := by
  have ends : ∀ groups : List Group,
      Options.read {} (groups.flatMap Group.arguments) = .ok (.options o) ↔ Described groups o := by
    intro groups
    rw [← List.append_nil (groups.flatMap Group.arguments), Options.read_groups, Outcome.bind_eq_ok, Described.iff_run]
    simp [Options.read]
  constructor
  · intro done
    obtain ⟨groups, rfl⟩ := Options.groups_of_read done
    exact ⟨groups, rfl, (ends groups).1 done⟩
  · rintro ⟨groups, rfl, described⟩
    exact (ends groups).2 described

private theorem ofArguments_eq_run {command : Command} : Request.ofArguments arguments = .ok (.run command o) ↔
    Options.read {} arguments = .ok (.options o) ∧ o.command = .ok command := by
  rw [Request.ofArguments, Outcome.bind_eq_ok]
  constructor
  · rintro ⟨reading, done, chosen⟩
    cases reading with
    | help | version => cases chosen
    | options found =>
      obtain ⟨own, taken, same⟩ := Outcome.bind_eq_ok.1 chosen
      cases same
      exact ⟨done, taken⟩
  · intro ⟨done, taken⟩
    exact ⟨.options o, done, Outcome.bind_eq_ok.2 ⟨command, taken, rfl⟩⟩

/-- An option that begins a group is followed by its value, whatever the value looks like. -/
theorem value_taken {value : String} (done : Options.read {} (groups.flatMap Group.arguments) = .ok (.options o))
    (split : groups.flatMap Group.arguments = others.flatMap Group.arguments ++ option.spelling :: value :: rest) :
    ∃ later, groups = others ++ .valued option value :: later := by
  have front : (others ++ [Group.valued option value]).flatMap Group.arguments ++ rest =
      groups.flatMap Group.arguments := by
    rw [split, List.flatMap_append, List.append_assoc]
    rfl
  rw [← front, Options.read_groups] at done
  obtain ⟨_, _, read⟩ := Outcome.bind_eq_ok.1 done
  obtain ⟨later, rfl⟩ := Options.groups_of_read read
  refine ⟨later, groups_unique ?_⟩
  rw [← front, ← List.flatMap_append, List.append_assoc]
  rfl

/-- Accepted arguments are split into groups in one way, and an option takes what stands behind
it. The groups may stand in any order that keeps the positionals and the values of each option
in theirs: such arguments are accepted and mean the same. -/
theorem options_stand_in_any_order (arguments : List String) (command : Command) (o : Options)
    (accepted : Request.ofArguments arguments = .ok (.run command o)) :
    ∃ groups, arguments = groups.flatMap Group.arguments ∧ Described groups o ∧
      (∀ others, arguments = others.flatMap Group.arguments → others = groups) ∧
      (∀ (before : List Group) (option : ValuedOption) value after,
        arguments = before.flatMap Group.arguments ++ option.spelling :: value :: after →
          ∃ later, groups = before ++ .valued option value :: later) ∧
      ∀ others, Reordered groups others →
        Request.ofArguments (others.flatMap Group.arguments) = .ok (.run command o) := by
  obtain ⟨done, chosen⟩ := ofArguments_eq_run.1 accepted
  obtain ⟨groups, rfl, described⟩ := read_iff.1 done
  refine ⟨groups, rfl, described, fun others same => groups_unique same.symm, ?_, ?_⟩
  · intro before option value after split
    exact value_taken done split
  · intro others reordered
    exact ofArguments_eq_run.2 ⟨read_iff.2 ⟨others, rfl, described.reordered reordered⟩, chosen⟩

/-- A comparison whose output is named like a flag and whose parts are given twice. -/
def comparing : List Group :=
  [.positional "compare" (by decide), .valued .references "retrospective", .positional "a" (by decide),
    .valued .output "-v", .valued .parts "metadata", .positional "b" (by decide),
    .valued .parts "Prospective, other", .switch .flow]

def comparingLater : List Group :=
  [.switch .flow, .valued .parts "metadata", .valued .output "-v", .positional "compare" (by decide),
    .valued .parts "Prospective, other", .positional "a" (by decide), .positional "b" (by decide),
    .valued .references "retrospective"]

def comparedOptions : Options :=
  { positional := ["compare", "a", "b"], output := some "-v", parts := [.prospective, .other]
    references := [.retrospective], writeFlow := true }

theorem comparison_is_read_in_either_order :
    Request.ofArguments (comparing.flatMap Group.arguments) = .ok (.run (.compare "a" "b") comparedOptions) ∧
    Request.ofArguments (comparingLater.flatMap Group.arguments) = .ok (.run (.compare "a" "b") comparedOptions) := by
  have parts : LastListed ["metadata", "Prospective, other"] [.prospective, .other] :=
    ⟨[[.metadata], [.prospective, .other]], Outcome.toOption_eq_some.1 (by decide +kernel), rfl⟩
  have references : LastListed ["retrospective"] [.retrospective] :=
    ⟨[[.retrospective]], Outcome.toOption_eq_some.1 (by decide +kernel), rfl⟩
  have described : Described comparing comparedOptions :=
    ⟨rfl, rfl, rfl, rfl, parts, references, by simp [comparedOptions, comparing], by simp [comparedOptions, comparing]⟩
  have accepted : Request.ofArguments (comparing.flatMap Group.arguments) =
      .ok (.run (.compare "a" "b") comparedOptions) :=
    ofArguments_eq_run.2 ⟨read_iff.2 ⟨comparing, rfl, described⟩, rfl⟩
  have order : Reordered comparing comparingLater := ⟨by decide +kernel, rfl, fun option => by cases option <;> rfl⟩
  obtain ⟨groups, _, _, once, _, reordered⟩ := options_stand_in_any_order _ _ _ accepted
  rw [← once comparing rfl] at reordered
  exact ⟨accepted, reordered comparingLater order⟩

end Provenance.CommandLine
