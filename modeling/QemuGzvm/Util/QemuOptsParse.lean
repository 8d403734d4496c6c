import QemuGzvm.Library.CheckedArray
import QemuGzvm.Util.QemuOption

/-!
Contract: `opts_parse` on a list of stored options (`util/qemu-option.c`).

Owns:
- creating or finding the `QemuOpts`, storing the pairs one by one, and the deletion after an
  error;
- when the id that the options are stored under is that of their own pairs;
- when a failed parse leaves the list as it was.

What `qemu_strtou64` and `qemu_strtosz` make of a value is a parameter. The field `loc` and the
texts that only help prints are left out.
-/

namespace QemuGzvm.Util

open QemuGzvm.Library

inductive QemuOptType where
  | string
  | bool
  | number
  | size
deriving DecidableEq

structure QemuOptDesc where
  name : CString
  type : QemuOptType
deriving DecidableEq

inductive OptValue where
  | unset
  | boolean (value : Bool)
  | uint (value : UInt64)
deriving DecidableEq

structure QemuOpt where
  name : CString
  str : CString
  desc : Option QemuOptDesc := none
  value : OptValue := .unset
deriving DecidableEq

structure QemuOpts where
  id : Option CString
  head : List QemuOpt := []
deriving DecidableEq

structure QemuOptsList where
  name : CString
  impliedOptName : Option CString
  mergeLists : Bool
  desc : List QemuOptDesc
  head : List QemuOpts

/-- What the number parsers say of a value. -/
inductive NumberResult where
  | ok (value : UInt64)
  | outOfRange
  | invalid

/-- `qemu_strtou64` and `qemu_strtosz`, given the whole value. -/
structure NumberParsers where
  strtou64 : CString → NumberResult
  strtosz : CString → NumberResult

variable (parsers : NumberParsers)

def quoted (before name after : CString) : CString :=
  before ++ "'".toList ++ name ++ "'".toList ++ after

/-- `QERR_INVALID_PARAMETER_VALUE` -/
def invalidValue (name expects : CString) : CString :=
  quoted "Parameter ".toList name (" expects ".toList ++ expects)

def qapiBoolParse (name value : CString) : Except CString Bool :=
  if value ∈ ["on".toList, "yes".toList, "true".toList, "y".toList] then .ok true
  else if value ∈ ["off".toList, "no".toList, "false".toList, "n".toList] then .ok false
  else .error (invalidValue name "'on' or 'off'".toList)

/-- `parse_option_number` and `parse_option_size` differ in their texts. -/
def parseOption (result : NumberResult) (name value isLarge expects : CString) :
    Except CString UInt64 :=
  match result with
  | .ok number => .ok number
  | .outOfRange =>
    .error (quoted "Value ".toList value isLarge ++ quoted " for parameter ".toList name [])
  | .invalid => .error (invalidValue name expects)

def parseOptionNumber (name value : CString) : Except CString UInt64 :=
  parseOption (parsers.strtou64 value) name value " is too large".toList "a number".toList

def parseOptionSize (name value : CString) : Except CString UInt64 :=
  parseOption (parsers.strtosz value) name value " is out of range".toList
    "a non-negative number below 2^64".toList

def qemuOptParse (opt : QemuOpt) : Except CString QemuOpt :=
  match opt.desc with
  | none => .ok opt
  | some desc =>
    match desc.type with
    | .string => .ok opt
    | .bool =>
      (qapiBoolParse opt.name opt.str).map fun value => { opt with value := .boolean value }
    | .number =>
      (parseOptionNumber parsers opt.name opt.str).map fun value => { opt with value := .uint value }
    | .size =>
      (parseOptionSize parsers opt.name opt.str).map fun value => { opt with value := .uint value }

/-- `opt_validate`; an empty table of descriptions accepts any name. -/
def optValidate (list : QemuOptsList) (opt : QemuOpt) : Except CString QemuOpt :=
  match list.desc.find? fun desc => desc.name == opt.name with
  | none =>
    if list.desc.isEmpty then qemuOptParse parsers opt
    else .error (quoted "Invalid parameter ".toList opt.name [])
  | some desc => qemuOptParse parsers { opt with desc := some desc }

inductive ParseEnd where
  | ok
  | help
  | error (message : CString)
deriving DecidableEq

/-- `opts_do_parse` over the pairs it obtains; `helpWanted` says whether the caller asks for help
requests. An option that does not validate is deleted again. -/
def optsDoParse (list : QemuOptsList) (helpWanted : Bool) (head : List QemuOpt) :
    List OptItem → List QemuOpt × ParseEnd
  | [] => (head, .ok)
  | item :: items =>
    if helpWanted && item.isHelp then (head, .help)
    else if item.name = idName then optsDoParse list helpWanted head items
    else
      match optValidate parsers list { name := item.name, str := item.value } with
      | .ok opt => optsDoParse list helpWanted (head ++ [opt]) items
      | .error message => (head, .error message)

def idWellformed (id : CString) : Bool :=
  match id with
  | [] => false
  | c :: rest => c.isAlpha && rest.all fun d => d.isAlphanum || "-._".toList.contains d

/-- `qemu_opts_find`: the first options under this id, with those before and behind them. -/
def qemuOptsFind (id : Option CString) :
    List QemuOpts → Option (List QemuOpts × QemuOpts × List QemuOpts)
  | [] => none
  | opts :: rest =>
    if opts.id = id then some ([], opts, rest)
    else (qemuOptsFind id rest).map fun (before, found, behind) => (opts :: before, found, behind)

/-- `qemu_opts_create`: the options of that id inside their list, or why there are none. -/
def qemuOptsCreate (list : QemuOptsList) (id : Option CString) (failIfExists : Bool) :
    Checked (Except CString (List QemuOpts × QemuOpts × List QemuOpts)) :=
  match list.mergeLists, id with
  | true, some _ => .ok (.error "Invalid parameter 'id'".toList)
  | true, none => .ok (.ok ((qemuOptsFind none list.head).getD (list.head, { id := none }, [])))
  | false, none => .ok (.ok (list.head, { id := none }, []))
  | false, some id =>
    if failIfExists = false then .error .assertion
    else if idWellformed id = false then .ok (.error (invalidValue idName "an identifier".toList))
    else if (qemuOptsFind (some id) list.head).isSome then
      .ok (.error (quoted "Duplicate ID ".toList id (" for ".toList ++ list.name)))
    else .ok (.ok (list.head, { id := some id }, []))

structure ParseResult where
  head : List QemuOpts
  ended : ParseEnd
  opts : Option QemuOpts

/-- The name that a value without one has in front of the string. -/
def firstname (list : QemuOptsList) (permitAbbrev : Bool) : Option CString :=
  if permitAbbrev then list.impliedOptName else none

def optsParse (list : QemuOptsList) (params : CString) (permitAbbrev helpWanted : Bool) :
    Checked ParseResult :=
  if permitAbbrev = true ∧ list.impliedOptName = none then .error .assertion
  else
    (qemuOptsCreate list (optsParseId params) (!list.mergeLists)).map fun created =>
      match created with
      | .error message => ⟨list.head, .error message, none⟩
      | .ok (before, opts, behind) =>
        match optsDoParse parsers list helpWanted opts.head
            (optItems params (firstname list permitAbbrev)) with
        | (head, .ok) => ⟨before ++ { opts with head } :: behind, .ok, some { opts with head }⟩
        | (_, ended) => ⟨before ++ behind, ended, none⟩

variable {parsers : NumberParsers} {list : QemuOptsList} {params : CString}
  {permitAbbrev helpWanted : Bool} {result : ParseResult} {before behind head : List QemuOpts}
  {id : Option CString} {opts : QemuOpts}

/-! ### The id -/

/-- The condition: without an implied name, or with a first pair that has one of its own, nothing
is asked. A first value that the implied name is for hides no id from the reader that knows no
implied name, and is itself the id only if the id pair behind it repeats it; or it hides the id
that the pairs behind it give. -/
def IdSeen (params : CString) : Option CString → Prop
  | none => True
  | some first =>
    params ≠ [] → (params.dropWhile inName).head? ≠ some '=' →
      (optsParseId (valueText params) = none ∧
        (first = idName →
          optsParseId (skipComma (getOptValue params).2) = some (getOptValue params).1)) ∨
      (first ≠ idName ∧
        optsParseId (valueText params) = optsParseId (skipComma (getOptValue params).2))

theorem optsParseId_eq_iff (params : CString) (first : Option CString) :
    optsParseId params = firstId (optItems params first) ↔ IdSeen params first := by
  cases first with
  | none => exact iff_of_true rfl trivial
  | some first =>
    by_cases empty : params = []
    · subst empty
      refine iff_of_true ?_ fun more => absurd rfl more
      rw [optsParseId, optItems, optItems]
    obtain ⟨name, rest, isParams, isName, ends⟩ := name_split params
    rcases ends with ⟨q, rfl⟩ | ends
    · have named : (params.dropWhile inName).head? = some '=' := by
        have notName : inName '=' = false := rfl
        simp [isParams, List.dropWhile_append_of_pos isName, notName]
      refine iff_of_true ?_ fun _ bare => absurd named bare
      rw [optsParseId, optItems_cons empty, optItems_cons empty, isParams,
        getOptNameValue_pair isName, getOptNameValue_pair isName]
    · have bare : (params.dropWhile inName).head? ≠ some '=' := by
        have notName : inName ',' = false := rfl
        rcases ends with rfl | ⟨q, rfl⟩
        · simp [isParams, List.dropWhile_eq_nil_iff.mpr isName]
        · simp [isParams, List.dropWhile_append_of_pos isName, notName]
      have pairs : firstId (optItems params (some first)) =
          if first = idName then some (getOptValue params).1
          else optsParseId (skipComma (getOptValue params).2) := by
        rw [optItems_cons empty, isParams, getOptNameValue_bare isName ends, firstId_cons]
        rfl
      have read : optsParseId params = (optsParseId (valueText params)).or
          (optsParseId (skipComma (getOptValue params).2)) ∧
          optsParseId (valueText params) ≠ some (getOptValue params).1 := by
        obtain ⟨text, rest, isSplit, isValue, behind⟩ := getOptValue_split params
        rw [isSplit, valueText_append isValue behind, isValue.getOptValue_append behind]
        exact ⟨optsParseId_append isValue behind,
          fun seen => (optsParseId_ne_value isValue seen).2 rfl⟩
      obtain ⟨read, differs⟩ := read
      rw [pairs, read]
      simp only [IdSeen, empty, bare, ne_eq, not_false_eq_true, true_imp_iff]
      cases hidden : optsParseId (valueText params) with
      | none => by_cases isId : first = idName <;> simp [isId, eq_comm]
      | some id =>
        rw [hidden] at differs
        by_cases isId : first = idName <;> simp_all

theorem qemuOptsFind_some (found : qemuOptsFind id head = some (before, opts, behind)) :
    head = before ++ opts :: behind ∧ opts.id = id := by
  induction head generalizing before with
  | nil => cases found
  | cons first rest ih =>
    rw [qemuOptsFind] at found
    split_ifs at found with isFirst
    · cases found
      exact ⟨rfl, isFirst⟩
    · obtain ⟨⟨tail, found, _⟩, later, isFound⟩ := Option.map_eq_some_iff.mp found
      cases isFound
      obtain ⟨rfl, isId⟩ := ih later
      exact ⟨rfl, isId⟩

theorem qemuOptsFind_none :
    qemuOptsFind id head = none ↔ ∀ opts ∈ head, opts.id ≠ id := by
  induction head with
  | nil => simp [qemuOptsFind]
  | cons first rest ih =>
    rw [qemuOptsFind, List.forall_mem_cons, ← ih]
    split_ifs with isFirst <;> simp [isFirst]

/-- What `qemu_opts_create` returns: stored options without id of a list that merges, or new
ones at the end. -/
theorem qemuOptsCreate_cases {failIfExists : Bool}
    (created : qemuOptsCreate list id failIfExists = .ok (.ok (before, opts, behind))) :
    opts.id = id ∧
      ((list.mergeLists = true ∧ id = none ∧ list.head = before ++ opts :: behind) ∨
        (before = list.head ∧ behind = [] ∧
          (list.mergeLists = true → id = none → ∀ stored ∈ list.head, stored.id ≠ none))) := by
  unfold qemuOptsCreate at created
  split at created
  · cases created
  · rename_i merges
    simp only [Except.ok.injEq] at created
    cases found : qemuOptsFind none list.head with
    | none =>
      rw [found, Option.getD_none] at created
      obtain ⟨rfl, rest⟩ := Prod.mk.inj created
      obtain ⟨rfl, rfl⟩ := Prod.mk.inj rest
      exact ⟨rfl, .inr ⟨rfl, rfl, fun _ _ => qemuOptsFind_none.mp found⟩⟩
    | some place =>
      rw [found, Option.getD_some] at created
      subst created
      obtain ⟨isHead, isId⟩ := qemuOptsFind_some found
      exact ⟨isId, .inl ⟨merges, rfl, isHead⟩⟩
  · rename_i single
    cases created
    exact ⟨rfl, .inr ⟨rfl, rfl, fun merges => absurd merges (by simp [single])⟩⟩
  · split_ifs at created <;> cases created
    exact ⟨rfl, .inr ⟨rfl, rfl, fun _ none => by cases none⟩⟩

/-- How `opts_parse` ends: it creates nothing, stores the pairs, or deletes the options again. -/
theorem optsParse_cases
    (parsed : optsParse parsers list params permitAbbrev helpWanted = .ok result) :
    (∃ message, qemuOptsCreate list (optsParseId params) (!list.mergeLists) = .ok (.error message) ∧
        result = ⟨list.head, .error message, none⟩) ∨
      ∃ before opts behind,
        qemuOptsCreate list (optsParseId params) (!list.mergeLists) =
            .ok (.ok (before, opts, behind)) ∧
          ((∃ head, result = ⟨before ++ { opts with head } :: behind, .ok, some { opts with head }⟩) ∨
            ∃ ended, ended ≠ .ok ∧ result = ⟨before ++ behind, ended, none⟩) := by
  unfold optsParse at parsed
  split_ifs at parsed
  cases created : qemuOptsCreate list (optsParseId params) (!list.mergeLists) with
  | error fault =>
    rw [created] at parsed
    cases parsed
  | ok place =>
    rw [created] at parsed
    cases parsed
    cases place with
    | error message => exact .inl ⟨message, rfl, rfl⟩
    | ok place =>
      obtain ⟨before, opts, behind⟩ := place
      refine .inr ⟨before, opts, behind, rfl, ?_⟩
      dsimp only
      split
      · exact .inl ⟨_, rfl⟩
      · rename_i ended notOk _
        exact .inr ⟨ended, notOk, rfl⟩

/-- The options are stored under the value of the first `id` pair exactly if the condition
holds. -/
theorem stored_id_eq_first_iff {opts : QemuOpts}
    (parsed : optsParse parsers list params permitAbbrev helpWanted = .ok result)
    (stored : result.opts = some opts) :
    opts.id = firstId (optItems params (firstname list permitAbbrev)) ↔
      IdSeen params (firstname list permitAbbrev) := by
  rw [← optsParseId_eq_iff]
  suffices isId : opts.id = optsParseId params by rw [isId]
  rcases optsParse_cases parsed with ⟨message, -, rfl⟩ |
    ⟨before, found, behind, created, ⟨head, rfl⟩ | ⟨ended, -, rfl⟩⟩
  · cases stored
  · cases stored
    exact (qemuOptsCreate_cases created).1
  · cases stored

def emptyList (impliedOptName : CString) (mergeLists : Bool) (desc : List QemuOptDesc) :
    QemuOptsList where
  name := "list".toList
  impliedOptName := some impliedOptName
  mergeLists := mergeLists
  desc := desc
  head := []

def noNumbers : NumberParsers := ⟨fun _ => .invalid, fun _ => .invalid⟩

/-- An escaped comma in the first value, and an id behind it. -/
theorem stored_id_eq_first_iff_escaped :
    ∃ result opts,
      optsParse noNumbers (emptyList "file".toList false []) "a,,b,id=x".toList true false =
        .ok result ∧ result.opts = some opts ∧ opts.id = some "x".toList ∧
      (opts.id = firstId (optItems "a,,b,id=x".toList (some "file".toList)) ↔
        IdSeen "a,,b,id=x".toList (some "file".toList)) := by
  have outcome : (optsParse noNumbers (emptyList "file".toList false []) "a,,b,id=x".toList true
      false).toOption.bind (fun result => result.opts.map QemuOpts.id) =
      some (some "x".toList) := by
    decide +kernel
  obtain ⟨result, parsed, seen⟩ := Option.bind_eq_some_iff.mp outcome
  obtain ⟨opts, stored, isId⟩ := Option.map_eq_some_iff.mp seen
  have parsed := toOption_eq_some.mp parsed
  exact ⟨result, opts, parsed, stored, isId, stored_id_eq_first_iff parsed stored⟩

/-- A part of an escaped first value is taken for the id. -/
theorem stored_id_of_escaped_value :
    ∃ result opts,
      optsParse noNumbers (emptyList "file".toList false []) "a,,id=x".toList true false =
        .ok result ∧ result.opts = some opts ∧ opts.id = some "x".toList ∧
      optItems "a,,id=x".toList (some "file".toList) =
        [{ name := "file".toList, value := "a,id=x".toList }] := by
  have outcome : (optsParse noNumbers (emptyList "file".toList false []) "a,,id=x".toList true
      false).toOption.bind (fun result => result.opts.map QemuOpts.id) =
      some (some "x".toList) := by
    decide +kernel
  obtain ⟨result, parsed, seen⟩ := Option.bind_eq_some_iff.mp outcome
  obtain ⟨opts, stored, isId⟩ := Option.map_eq_some_iff.mp seen
  exact ⟨result, opts, toOption_eq_some.mp parsed, stored, isId, by decide +kernel⟩

/-! ### Errors -/

/-- The parse works on options that are stored already: the list merges, has options without
id, and the string gives none. -/
def ReusesStored (list : QemuOptsList) (params : CString) : Prop :=
  list.mergeLists = true ∧ (∀ item ∈ optItems params none, item.name ≠ idName) ∧
    ∃ opts ∈ list.head, opts.id = none

theorem optsParseId_eq_none : optsParseId params = none ↔
    ∀ item ∈ optItems params none, item.name ≠ idName := by
  simp [optsParseId, firstId, List.find?_eq_none]

/-- After an error the list is as it was exactly if the parse did not work on options that were
stored before. -/
theorem failed_parse_keeps_list_iff {message : CString}
    (parsed : optsParse parsers list params permitAbbrev helpWanted = .ok result)
    (failed : result.ended = .error message) :
    result.head = list.head ↔ ¬ReusesStored list params := by
  unfold ReusesStored
  rw [← optsParseId_eq_none]
  rcases optsParse_cases parsed with ⟨reason, created, rfl⟩ |
    ⟨before, opts, behind, created, ⟨head, rfl⟩ | ⟨ended, -, rfl⟩⟩
  · refine iff_of_true rfl ?_
    rintro ⟨merges, none, -⟩
    simp [qemuOptsCreate, merges, none] at created
  · cases failed
  · rcases (qemuOptsCreate_cases created).2 with ⟨merges, none, isHead⟩ | ⟨rfl, rfl, fresh⟩
    · have isId := (qemuOptsCreate_cases created).1
      refine iff_of_false (fun same => ?_) fun kept => kept ⟨merges, none, opts, ?_, isId.trans none⟩
      · have lengths := congrArg List.length (same.trans isHead)
        simp at lengths
      · rw [isHead]
        simp
    · refine iff_of_true (List.append_nil _) ?_
      rintro ⟨merges, none, stored, member, anonymous⟩
      exact fresh merges none stored member anonymous

def flagsList (mergeLists : Bool) : QemuOptsList :=
  { emptyList "a".toList mergeLists [⟨"a".toList, .bool⟩, ⟨"b".toList, .bool⟩] with
    head := [{ id := none, head := [⟨"a".toList, "on".toList, none, .boolean true⟩] }] }

theorem failed_parse_keeps_list_iff_unmerged :
    ∃ result message, optsParse noNumbers (flagsList false) "b=maybe".toList false false =
        .ok result ∧ result.ended = .error message ∧
      (result.head = (flagsList false).head ↔ ¬ReusesStored (flagsList false) "b=maybe".toList) := by
  have outcome : (optsParse noNumbers (flagsList false) "b=maybe".toList false false).toOption.map
      ParseResult.ended = some (.error "Parameter 'b' expects 'on' or 'off'".toList) := by
    decide +kernel
  obtain ⟨result, parsed, failed⟩ := Option.map_eq_some_iff.mp outcome
  have parsed := toOption_eq_some.mp parsed
  exact ⟨result, _, parsed, failed, failed_parse_keeps_list_iff parsed failed⟩

/-- A bad value deletes what an earlier string had stored. -/
theorem failed_parse_deletes_merged :
    ∃ result message, optsParse noNumbers (flagsList true) "b=maybe".toList false false =
        .ok result ∧ result.ended = .error message ∧ (flagsList true).head ≠ [] ∧
      result.head = [] := by
  have outcome : (optsParse noNumbers (flagsList true) "b=maybe".toList false false).toOption.map
      (fun result => (result.ended, result.head)) =
      some (.error "Parameter 'b' expects 'on' or 'off'".toList, []) := by
    decide +kernel
  obtain ⟨result, parsed, isResult⟩ := Option.map_eq_some_iff.mp outcome
  obtain ⟨failed, deleted⟩ := Prod.mk.inj isResult
  exact ⟨result, _, toOption_eq_some.mp parsed, failed, List.cons_ne_nil _ _, deleted⟩

end QemuGzvm.Util
