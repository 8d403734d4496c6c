import Mathlib.Data.List.TakeWhile
import Mathlib.Tactic.Common

/-!
Contract: the pairs of an option string (`util/qemu-option.c`).

Owns:
- `get_opt_value` and `get_opt_name_value`, and the pairs that a loop over the latter obtains;
- `opts_parse_id`, which looks for the id in a loop of its own and knows no implied name;
- `optsParseId_append`: that loop comes to the end of a positional value, whatever it has
  taken for an id in it.

A C string is a list of characters. Warnings about short-form flags are left out.
-/

namespace QemuGzvm.Util

abbrev CString := List Char

/-! ### Reading pairs -/

/-- `get_opt_value`, one character at a time: the value, in which two commas stand for one, and
what is behind it. -/
def getOptValue : CString → CString × CString
  | [] => ([], [])
  | ',' :: ',' :: p => (',' :: (getOptValue p).1, (getOptValue p).2)
  | ',' :: p => ([], ',' :: p)
  | c :: p => (c :: (getOptValue p).1, (getOptValue p).2)

/-- A name with its value; `isHelp` is set for a flag that asks for help. -/
structure OptItem where
  name : CString
  value : CString
  isHelp : Bool := false
deriving DecidableEq

def skipComma : CString → CString
  | ',' :: p => p
  | p => p

def isHelpOption (name : CString) : Bool := name == "?".toList || name == "help".toList

def flagItem (name : CString) : OptItem :=
  if "no".toList.isPrefixOf name then { name := name.drop 2, value := "off".toList }
  else { name, value := "on".toList, isHelp := isHelpOption name }

def inName (c : Char) : Bool := c != '=' && c != ','

/-- `get_opt_name_value`, with what is behind the pair. -/
def getOptNameValue (params : CString) (firstname : Option CString) : OptItem × CString :=
  match params.dropWhile inName with
  | '=' :: p =>
    ({ name := params.takeWhile inName, value := (getOptValue p).1 }, skipComma (getOptValue p).2)
  | p =>
    match firstname with
    | some name => ({ name, value := (getOptValue params).1 }, skipComma (getOptValue params).2)
    | none => (flagItem (params.takeWhile inName), skipComma p)

/-- What can stand behind a value: nothing, or a comma that is not doubled. -/
inductive BehindValue : CString → Prop
  | nil : BehindValue []
  | last : BehindValue [',']
  | comma {c : Char} (p : CString) (single : c ≠ ',') : BehindValue (',' :: c :: p)

/-- The text of a value: every comma in it is doubled. -/
inductive ValueText : CString → Prop
  | nil : ValueText []
  | char {c : Char} {text : CString} (plain : c ≠ ',') (rest : ValueText text) :
    ValueText (c :: text)
  | comma {text : CString} (rest : ValueText text) : ValueText (',' :: ',' :: text)

theorem getOptValue_char {c : Char} (plain : c ≠ ',') (p : CString) :
    getOptValue (c :: p) = (c :: (getOptValue p).1, (getOptValue p).2) := by
  rw [getOptValue]
  · exact fun _ isComma => absurd isComma plain
  · exact plain

variable {rest text name params : CString}

theorem ValueText.getOptValue_append (isValue : ValueText text) (behind : BehindValue rest) :
    getOptValue (text ++ rest) = ((getOptValue text).1, rest) := by
  induction isValue with
  | nil =>
    cases behind with
    | nil => rfl
    | last => rfl
    | comma p single =>
      rw [List.nil_append, getOptValue, getOptValue]
      exact fun _ same => single (List.cons.inj same).1
  | char plain _ ih =>
    rw [List.cons_append, getOptValue_char plain, getOptValue_char plain, ih]
  | comma _ ih =>
    rw [List.cons_append, List.cons_append, getOptValue, getOptValue, ih]

theorem getOptValue_split (p : CString) :
    ∃ text rest, p = text ++ rest ∧ ValueText text ∧ BehindValue rest := by
  fun_induction getOptValue p with
  | case1 => exact ⟨[], [], rfl, .nil, .nil⟩
  | case2 p ih =>
    obtain ⟨text, rest, rfl, isValue, behind⟩ := ih
    exact ⟨',' :: ',' :: text, rest, rfl, .comma isValue, behind⟩
  | case3 p single =>
    refine ⟨[], ',' :: p, rfl, .nil, ?_⟩
    cases p with
    | nil => exact .last
    | cons c p => exact .comma p fun isComma => single p (by rw [isComma])
  | case4 c p notDoubled notSingle ih =>
    obtain ⟨text, rest, rfl, isValue, behind⟩ := ih
    exact ⟨c :: text, rest, rfl, .char (fun isComma => notSingle isComma) isValue, behind⟩

theorem BehindValue.skipComma_lt (behind : BehindValue rest) {count : Nat}
    (room : rest.length ≤ count) (more : 0 < count) : (skipComma rest).length < count := by
  cases behind with
  | nil => exact more
  | last => exact more
  | comma p single =>
    simp only [skipComma, List.length_cons] at room ⊢
    omega

theorem BehindValue.ends (behind : BehindValue rest) : rest = [] ∨ ∃ p, rest = ',' :: p := by
  cases behind with
  | nil => exact .inl rfl
  | last => exact .inr ⟨_, rfl⟩
  | comma p single => exact .inr ⟨_, rfl⟩

/-- A string is a name and what ends it. -/
theorem name_split (p : CString) :
    ∃ name rest, p = name ++ rest ∧ (∀ c ∈ name, inName c = true) ∧
      ((∃ q, rest = '=' :: q) ∨ rest = [] ∨ ∃ q, rest = ',' :: q) := by
  refine ⟨p.takeWhile inName, p.dropWhile inName, List.takeWhile_append_dropWhile.symm,
    fun c member => List.mem_takeWhile_imp member, ?_⟩
  cases isRest : p.dropWhile inName with
  | nil => exact .inr (.inl rfl)
  | cons c q =>
    have ends : inName c = false := by
      have first := List.head_dropWhile_not inName (l := p) (by rw [isRest]; exact List.cons_ne_nil _ _)
      simpa only [isRest, List.head_cons] using first
    simp only [inName, Bool.and_eq_false_iff, bne_eq_false_iff_eq] at ends
    rcases ends with rfl | rfl
    · exact .inl ⟨q, rfl⟩
    · exact .inr (.inr ⟨q, rfl⟩)

section Item

variable (isName : ∀ c ∈ name, inName c = true)

include isName

theorem getOptNameValue_pair (p : CString) (firstname : Option CString) :
    getOptNameValue (name ++ '=' :: p) firstname =
      ({ name, value := (getOptValue p).1 }, skipComma (getOptValue p).2) := by
  have ends : inName '=' = false := rfl
  simp [getOptNameValue, List.takeWhile_append_of_pos isName, List.dropWhile_append_of_pos isName,
    ends]

theorem getOptNameValue_bare {rest : CString} (ends : rest = [] ∨ ∃ q, rest = ',' :: q)
    (firstname : Option CString) :
    getOptNameValue (name ++ rest) firstname =
      firstname.elim (flagItem name, skipComma rest) fun first =>
        ({ name := first, value := (getOptValue (name ++ rest)).1 },
          skipComma (getOptValue (name ++ rest)).2) := by
  have isComma : inName ',' = false := rfl
  rcases ends with rfl | ⟨q, rfl⟩
  · cases firstname <;> simp [getOptNameValue, List.takeWhile_eq_self_iff.mpr isName,
      List.dropWhile_eq_nil_iff.mpr isName]
  · cases firstname <;> simp [getOptNameValue, List.takeWhile_append_of_pos isName,
      List.dropWhile_append_of_pos isName, isComma]

end Item

theorem getOptNameValue_length (more : params ≠ [])
    (firstname : Option CString) : (getOptNameValue params firstname).2.length < params.length := by
  have value : ∀ p : CString, ∀ count, p.length ≤ count → 0 < count →
      (skipComma (getOptValue p).2).length < count := by
    intro p count room positive
    obtain ⟨text, rest, rfl, isValue, behind⟩ := getOptValue_split p
    rw [isValue.getOptValue_append behind]
    rw [List.length_append] at room
    exact behind.skipComma_lt (by omega) positive
  obtain ⟨name, rest, rfl, isName, ends⟩ := name_split params
  have positive := List.length_pos_iff.mpr more
  rcases ends with ⟨p, rfl⟩ | ends
  · rw [getOptNameValue_pair isName]
    exact value p _ (by simp; omega) positive
  · rw [getOptNameValue_bare isName ends]
    cases firstname with
    | some first => exact value _ _ (Nat.le_refl _) positive
    | none =>
      rcases ends with rfl | ⟨p, rfl⟩
      · exact positive
      · simp [skipComma]
        omega

/-- The pairs that a loop over `get_opt_name_value` obtains. The implied name is for the first
one only. -/
def optItems (params : CString) (firstname : Option CString) : List OptItem :=
  match params with
  | [] => []
  | c :: p =>
    (getOptNameValue (c :: p) firstname).1 :: optItems (getOptNameValue (c :: p) firstname).2 none
termination_by params.length
decreasing_by exact getOptNameValue_length (List.cons_ne_nil c p) firstname

theorem optItems_cons (more : params ≠ []) (firstname : Option CString) :
    optItems params firstname =
      (getOptNameValue params firstname).1 :: optItems (getOptNameValue params firstname).2 none := by
  cases params with
  | nil => exact absurd rfl more
  | cons c p => rw [optItems]

def idName : CString := "id".toList

def firstId (items : List OptItem) : Option CString :=
  (items.find? fun item => item.name == idName).map OptItem.value

theorem firstId_cons (item : OptItem) (items : List OptItem) :
    firstId (item :: items) = if item.name = idName then some item.value else firstId items := by
  unfold firstId
  split_ifs with isId
  · rw [List.find?_cons_of_pos (by simpa using isId)]
    rfl
  · rw [List.find?_cons_of_neg (by simpa using isId)]

/-- `opts_parse_id`, which reads the string without an implied name. -/
def optsParseId (params : CString) : Option CString := firstId (optItems params none)

/-! ### Where the two readers agree -/

theorem optsParseId_nil : optsParseId [] = none := by
  rw [optsParseId, optItems]
  rfl

theorem optsParseId_pair (isName : ∀ c ∈ name, inName c = true) (p : CString) :
    optsParseId (name ++ '=' :: p) =
      if name = idName then some (getOptValue p).1
      else optsParseId (skipComma (getOptValue p).2) := by
  rw [optsParseId, optItems_cons (by simp), getOptNameValue_pair isName, firstId_cons]
  rfl

theorem optsParseId_flag (isName : ∀ c ∈ name, inName c = true)
    (ends : rest = [] ∨ ∃ q, rest = ',' :: q) :
    optsParseId (name ++ rest) =
      if (flagItem name).name = idName then some (flagItem name).value
      else optsParseId (skipComma rest) := by
  by_cases empty : name ++ rest = []
  · obtain ⟨rfl, rfl⟩ := List.append_eq_nil_iff.mp empty
    rfl
  · rw [optsParseId, optItems_cons empty, getOptNameValue_bare isName ends, Option.elim_none,
      firstId_cons]
    rfl

theorem optsParseId_comma (p : CString) : optsParseId (',' :: p) = optsParseId p :=
  optsParseId_flag (fun _ member => absurd member List.not_mem_nil) (.inr ⟨p, rfl⟩)

theorem ValueText.of_name (isName : ∀ c ∈ name, inName c = true)
    (isValue : ValueText (name ++ rest)) : ValueText rest := by
  induction name with
  | nil => exact isValue
  | cons c name ih =>
    apply ih (fun d member => isName d (List.mem_cons_of_mem _ member))
    generalize isText : (c :: name) ++ rest = text at isValue
    cases isValue with
    | nil => cases isText
    | char plain rest =>
      cases isText
      exact rest
    | comma rest =>
      obtain ⟨rfl, -⟩ := List.cons.inj isText
      exact absurd (isName ',' List.mem_cons_self) (by decide)

/-- The reader that knows no implied name comes to the end of a positional value, whatever it has
seen in it. -/
theorem optsParseId_append (isValue : ValueText text) (behind : BehindValue rest) :
    optsParseId (text ++ rest) =
      (optsParseId text).or (optsParseId (skipComma rest)) := by
  induction length : text.length using Nat.strong_induction_on generalizing text with
  | _ count ih =>
  obtain ⟨name, tail, rfl, isName, ends⟩ := name_split text
  have tailValue := isValue.of_name isName
  have nothing : optsParseId (skipComma []) = none := optsParseId_nil
  rcases ends with ⟨q, rfl⟩ | rfl | ⟨q, rfl⟩
  · -- a pair: its value ends where the positional value does
    have isText : ValueText q := by
      cases tailValue with
      | char plain rest => exact rest
    have alone := isText.getOptValue_append .nil
    rw [List.append_nil] at alone
    rw [List.append_assoc, List.cons_append, optsParseId_pair isName, optsParseId_pair isName,
      isText.getOptValue_append behind, alone, nothing]
    split_ifs <;> rfl
  · have alone := optsParseId_flag isName (.inl rfl)
    rw [alone, List.append_nil, optsParseId_flag isName behind.ends, nothing]
    split_ifs <;> rfl
  · -- a flag, then an empty one between the two commas
    cases tailValue with
    | char plain _ => exact absurd rfl plain
    | @comma tail isText =>
    have shorter : tail.length < count := by
      rw [← length]
      simp
      omega
    have after := ih tail.length shorter isText rfl
    rw [List.append_assoc, List.cons_append, List.cons_append,
      optsParseId_flag isName (.inr ⟨_, rfl⟩), optsParseId_flag isName (.inr ⟨_, rfl⟩)]
    simp only [skipComma, optsParseId_comma, after]
    split_ifs <;> rfl

/-! ### The text of a positional value -/

/-- The text of the value that a string starts with. -/
def valueText (p : CString) : CString := p.take (p.length - (getOptValue p).2.length)

theorem valueText_append (isValue : ValueText text) (behind : BehindValue rest) :
    valueText (text ++ rest) = text := by
  simp [valueText, isValue.getOptValue_append behind]

theorem getOptValue_name (isName : ∀ c ∈ name, inName c = true) (p : CString) :
    (getOptValue (name ++ p)).1 = name ++ (getOptValue p).1 := by
  induction name with
  | nil => rfl
  | cons c name ih =>
    have plain : c ≠ ',' := by
      rintro rfl
      exact absurd (isName ',' List.mem_cons_self) (by decide)
    rw [List.cons_append, getOptValue_char plain,
      ih fun d member => isName d (List.mem_cons_of_mem _ member), List.cons_append]

/-- A flag that reads as an id: its name is longer than its value, or differs from it. -/
theorem flagItem_id (isId : (flagItem name).name = idName) :
    (flagItem name).value.length ≤ name.length ∧
      ∀ rest, (flagItem name).value ≠ name ++ rest := by
  unfold flagItem at isId ⊢
  split_ifs at isId ⊢ with negated
  · obtain ⟨rest, isRest⟩ := List.isPrefixOf_iff_prefix.mp negated
    subst isRest
    have isRest : rest = idName := isId
    subst isRest
    exact ⟨by decide, fun rest same => by cases same⟩
  · have isName : name = idName := isId
    subst isName
    exact ⟨by decide, fun rest same => by cases same⟩

/-- What is taken for an id inside a positional value is never the value itself. -/
theorem optsParseId_ne_value (isValue : ValueText text) {id : CString}
    (seen : optsParseId text = some id) :
    id.length ≤ (getOptValue text).1.length ∧ id ≠ (getOptValue text).1 := by
  induction length : text.length using Nat.strong_induction_on generalizing text with
  | _ count ih =>
  obtain ⟨name, tail, rfl, isName, ends⟩ := name_split text
  have tailValue := isValue.of_name isName
  rw [getOptValue_name isName]
  rcases ends with ⟨q, rfl⟩ | rfl | ⟨q, rfl⟩
  · have isText : ValueText q := by
      cases tailValue with
      | char plain rest => exact rest
    have alone := isText.getOptValue_append .nil
    rw [List.append_nil] at alone
    rw [optsParseId_pair isName, alone, show skipComma [] = [] from rfl, optsParseId_nil] at seen
    rw [getOptValue_char (by decide)]
    split_ifs at seen
    cases seen
    refine ⟨by simp; omega, fun same => ?_⟩
    have lengths := congrArg List.length same
    simp at lengths
    omega
  · rw [optsParseId_flag isName (.inl rfl), show skipComma [] = [] from rfl, optsParseId_nil] at seen
    split_ifs at seen with isId
    cases seen
    obtain ⟨short, differs⟩ := flagItem_id isId
    exact ⟨by simp [getOptValue, short], differs _⟩
  · cases tailValue with
    | char plain _ => exact absurd rfl plain
    | @comma tail isText =>
    have shorter : tail.length < count := by
      rw [← length]
      simp
      omega
    rw [optsParseId_flag isName (.inr ⟨_, rfl⟩)] at seen
    simp only [skipComma, optsParseId_comma] at seen
    rw [getOptValue]
    split_ifs at seen with isId
    · cases seen
      obtain ⟨short, differs⟩ := flagItem_id isId
      exact ⟨by simp; omega, differs _⟩
    · obtain ⟨short, -⟩ := ih tail.length shorter isText seen rfl
      refine ⟨by simp; omega, fun same => ?_⟩
      have lengths := congrArg List.length same
      simp at lengths
      omega

end QemuGzvm.Util
