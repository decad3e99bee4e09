import Mathlib.Tactic.IntervalCases
import SpaceDataModule.JavaScript

/-! JSON values, the text `JSON.stringify` writes for them, and what a reader of
the text can tell apart: everything but numbers that are not finite. -/
namespace Json
open JavaScript

inductive Value where
  | null
  | bool (value : Bool)
  | number (value : Number)
  | string (value : String)
  | array (items : List Value)
  | object (members : List (String × Value))

@[elab_as_elim]
theorem Value.induction {P : Value → Prop} (null : P .null) (bool : ∀ value, P (.bool value))
    (number : ∀ value, P (.number value)) (string : ∀ value, P (.string value))
    (array : ∀ items, (∀ item ∈ items, P item) → P (.array items))
    (object : ∀ members, (∀ member ∈ members, P member.2) → P (.object members))
    (value : Value) : P value :=
  @Value.rec P (fun items => ∀ item ∈ items, P item)
    (fun members => ∀ member ∈ members, P member.2) (fun member => P member.2)
    null bool number string array object nofun
    (fun _ _ head tail => List.forall_mem_cons.mpr ⟨head, tail⟩) nofun
    (fun _ _ head tail => List.forall_mem_cons.mpr ⟨head, tail⟩) (fun _ _ value => value) value

/-- `Number.prototype.toString` on finite numbers, as far as a reader needs it. -/
structure NumberFormat where
  text : ℚ → List Char
  injective : Function.Injective text
  digits : ∀ value, ∀ c ∈ text value, c ∈ "0123456789+-.e".toList
  nonempty : ∀ value, text value ≠ []

/-- How the characters of a string literal are written: no code is the start of
another one, and none starts with the closing quote. -/
structure Escape where
  code : Char → List Char
  opens : ∀ c, ∃ head rest, code c = head :: rest ∧ head ≠ '"'
  splits : ∀ c d first second, code c ++ first = code d ++ second → c = d ∧ first = second

section Text
variable (escape : Char → List Char) (format : NumberFormat)

def quote (text : String) : List Char := '"' :: (text.toList.flatMap escape ++ ['"'])

mutual
/-- `JSON.stringify`. A number that is not finite is written as null. -/
def text : Value → List Char
  | .null => "null".toList
  | .bool true => "true".toList
  | .bool false => "false".toList
  | .number (.finite value) => format.text value
  | .number _ => "null".toList
  | .string value => quote escape value
  | .array items => '[' :: (textItems items ++ [']'])
  | .object members => '\x7b' :: (textMembers members ++ ['\x7d'])

def textItems : List Value → List Char
  | [] => []
  | item :: rest => text item ++ textMoreItems rest

def textMoreItems : List Value → List Char
  | [] => []
  | item :: rest => ',' :: (text item ++ textMoreItems rest)

def textMembers : List (String × Value) → List Char
  | [] => []
  | (key, value) :: rest => quote escape key ++ ':' :: (text value ++ textMoreMembers rest)

def textMoreMembers : List (String × Value) → List Char
  | [] => []
  | (key, value) :: rest =>
    ',' :: (quote escape key ++ ':' :: (text value ++ textMoreMembers rest))
end

end Text

mutual
def seen : Value → Value
  | .number (.finite value) => .number (.finite value)
  | .number _ => .null
  | .array items => .array (seenItems items)
  | .object members => .object (seenMembers members)
  | other => other

def seenItems : List Value → List Value
  | [] => []
  | item :: rest => seen item :: seenItems rest

def seenMembers : List (String × Value) → List (String × Value)
  | [] => []
  | (key, value) :: rest => (key, seen value) :: seenMembers rest
end

theorem seenItems_eq_map (items : List Value) : seenItems items = items.map seen := by
  induction items with
  | nil => rfl
  | cons item rest ih => rw [seenItems, ih, List.map_cons]

theorem seenMembers_eq_map (members : List (String × Value)) :
    seenMembers members = members.map fun member => (member.1, seen member.2) := by
  induction members with
  | nil => rfl
  | cons member rest ih => rw [seenMembers, ih, List.map_cons]

section Reading
variable {escape : Escape} {format : NumberFormat}

/-- What may follow a value. -/
def Stops (rest : List Char) : Prop := ∀ c more, rest = c :: more → c ∈ [',', ']', '\x7d']

theorem stops_nil : Stops [] := by
  intro c more same
  cases same

theorem stops_cons {c : Char} (listed : c ∈ [',', ']', '\x7d']) (more : List Char) :
    Stops (c :: more) := by
  intro d rest same
  cases same
  exact listed

inductive Kind where
  | null | yes | no | number | string | array | object | other
  deriving DecidableEq

def kindOf : Value → Kind
  | .null => .null
  | .bool true => .yes
  | .bool false => .no
  | .number (.finite _) => .number
  | .number _ => .null
  | .string _ => .string
  | .array _ => .array
  | .object _ => .object

def kindOfChar (c : Char) : Kind :=
  if c = 'n' then .null
  else if c = 't' then .yes
  else if c = 'f' then .no
  else if c ∈ "0123456789+-.e".toList then .number
  else if c = '"' then .string
  else if c = '[' then .array
  else if c = '\x7b' then .object
  else .other

theorem kindOfChar_digit : ∀ c ∈ "0123456789+-.e".toList, kindOfChar c = .number :=
  List.forall_iff_forall_mem.mp (by decide)

theorem text_head (escape : Escape) (format : NumberFormat) (value : Value) :
    ∃ c rest, text escape.code format value = c :: rest ∧ kindOfChar c = kindOf value := by
  cases value with
  | null => exact ⟨'n', _, rfl, rfl⟩
  | bool value =>
    cases value with
    | true => exact ⟨'t', _, rfl, rfl⟩
    | false => exact ⟨'f', _, rfl, rfl⟩
  | number value =>
    cases value with
    | nan => exact ⟨'n', _, rfl, rfl⟩
    | infinity negative => exact ⟨'n', _, rfl, rfl⟩
    | finite value =>
      obtain ⟨c, rest, head⟩ := List.exists_cons_of_ne_nil (format.nonempty value)
      refine ⟨c, rest, head, ?_⟩
      exact kindOfChar_digit c (format.digits value c (by simp [head]))
  | string value => exact ⟨'"', _, rfl, rfl⟩
  | array items => exact ⟨'[', _, rfl, rfl⟩
  | object members => exact ⟨'\x7b', _, rfl, rfl⟩

theorem kindOf_eq_of_text
    (same : text escape.code format left ++ first = text escape.code format right ++ second) :
    kindOf left = kindOf right := by
  obtain ⟨c, _, leftHead, leftKind⟩ := text_head escape format left
  obtain ⟨d, _, rightHead, rightKind⟩ := text_head escape format right
  rw [leftHead, rightHead] at same
  rw [← leftKind, ← rightKind, (List.cons.inj same).1]

/-- The end of a literal is found at the first quote that no code opens with. -/
theorem literal_append_inj {left right first second : List Char}
    (same : left.flatMap escape.code ++ '"' :: first = right.flatMap escape.code ++ '"' :: second) :
    left = right ∧ first = second := by
  induction left generalizing right with
  | nil =>
    cases right with
    | nil => exact ⟨rfl, (List.cons.inj same).2⟩
    | cons d right =>
      obtain ⟨head, rest, code, notQuote⟩ := escape.opens d
      rw [List.flatMap_cons, code] at same
      exact (notQuote (List.cons.inj same).1.symm).elim
  | cons c left ih =>
    cases right with
    | nil =>
      obtain ⟨head, rest, code, notQuote⟩ := escape.opens c
      rw [List.flatMap_cons, code] at same
      exact (notQuote (List.cons.inj same).1).elim
    | cons d right =>
      rw [List.flatMap_cons, List.flatMap_cons, List.append_assoc, List.append_assoc] at same
      obtain ⟨rfl, rest⟩ := escape.splits _ _ _ _ same
      obtain ⟨rfl, rfl⟩ := ih rest
      exact ⟨rfl, rfl⟩

theorem quote_append_inj
    (same : quote escape.code left ++ first = quote escape.code right ++ second) :
    left = right ∧ first = second := by
  simp only [quote, List.cons_append, List.append_assoc] at same
  obtain ⟨texts, rest⟩ := literal_append_inj (List.cons.inj same).2
  exact ⟨String.toList_injective texts, rest⟩

/-- A number ends where the first character stands that is not its own. -/
theorem number_append_inj (firstStops : Stops first) (secondStops : Stops second)
    (same : format.text left ++ first = format.text right ++ second) :
    left = right ∧ first = second := by
  have ends : ∀ (value : ℚ) (rest : List Char), Stops rest →
      (format.text value ++ rest).takeWhile (· ∈ "0123456789+-.e".toList) = format.text value := by
    intro value rest stops
    have own : ∀ c ∈ format.text value, decide (c ∈ "0123456789+-.e".toList) = true := by
      intro c member
      exact decide_eq_true (format.digits value c member)
    rw [List.takeWhile_append_of_pos own]
    cases rest with
    | nil => simp
    | cons c more =>
      have foreign : ∀ d ∈ [',', ']', '\x7d'], decide (d ∈ "0123456789+-.e".toList) = false :=
        List.forall_iff_forall_mem.mp (by decide)
      rw [List.takeWhile_cons_of_neg (Bool.not_eq_true _ ▸ foreign c (stops c more rfl)),
        List.append_nil]
  have texts : format.text left = format.text right := by
    rw [← ends left first firstStops, same, ends right second secondStops]
  refine ⟨format.injective texts, ?_⟩
  rw [texts] at same
  exact List.append_cancel_left same

section
variable (code : Char → List Char)

theorem textMoreItems_eq (items : List Value) :
    textMoreItems code format items = items.flatMap fun item => ',' :: text code format item := by
  induction items with
  | nil => rfl
  | cons item rest ih => rw [textMoreItems, ih, List.flatMap_cons, List.cons_append]

theorem textItems_eq (items : List Value) :
    textItems code format items =
      (items.flatMap fun item => ',' :: text code format item).tail := by
  cases items with
  | nil => rfl
  | cons item rest => rw [textItems, textMoreItems_eq, List.flatMap_cons, List.cons_append, List.tail_cons]

variable (members : List (String × Value))

theorem textMoreMembers_eq :
    textMoreMembers code format members = members.flatMap fun member =>
      ',' :: (quote code member.1 ++ ':' :: text code format member.2) := by
  induction members with
  | nil => rfl
  | cons member rest ih =>
    rw [textMoreMembers, ih, List.flatMap_cons, List.cons_append, List.append_assoc,
      List.cons_append]

theorem textMembers_eq :
    textMembers code format members = (members.flatMap fun member =>
      ',' :: (quote code member.1 ++ ':' :: text code format member.2)).tail := by
  cases members with
  | nil => rfl
  | cons member rest =>
    rw [textMembers, textMoreMembers_eq, List.flatMap_cons, List.cons_append, List.tail_cons,
      List.append_assoc, List.cons_append]

end

def Shape (value : Value) : Kind → Prop
  | .null => seen value = .null ∧ ∀ escape format, text escape format value = "null".toList
  | .yes => value = .bool true
  | .no => value = .bool false
  | .number => ∃ number, value = .number (.finite number)
  | .string => ∃ text, value = .string text
  | .array => ∃ items, value = .array items
  | .object => ∃ members, value = .object members
  | .other => False

theorem shape (value : Value) : Shape value (kindOf value) := by
  cases value with
  | null => exact ⟨rfl, fun _ _ => rfl⟩
  | bool value => cases value <;> rfl
  | number value =>
    cases value with
    | nan => exact ⟨rfl, fun _ _ => rfl⟩
    | infinity negative => exact ⟨rfl, fun _ _ => rfl⟩
    | finite number => exact ⟨number, rfl⟩
  | string text => exact ⟨text, rfl⟩
  | array items => exact ⟨items, rfl⟩
  | object members => exact ⟨members, rfl⟩

/-- No value starts with a character that ends a list. -/
theorem text_append_ne (foreign : kindOfChar c = .other) :
    text escape.code format value ++ first ≠ c :: second := by
  intro same
  obtain ⟨d, rest, head, kind⟩ := text_head escape format value
  rw [head] at same
  obtain ⟨rfl, _⟩ := List.cons.inj same
  have none := shape value
  rw [← kind, foreign] at none
  exact none

theorem null_append_inj (leftShape : Shape left .null) (rightShape : Shape right .null)
    (same : text escape.code format left ++ first = text escape.code format right ++ second) :
    seen left = seen right ∧ first = second := by
  rw [leftShape.2, rightShape.2] at same
  exact ⟨leftShape.1.trans rightShape.1.symm, List.append_cancel_left same⟩

section Lists
variable {α β : Type} {write : α → List Char} (view : α → β) {close : Char} {left right : List α}
  {first second : List Char} (listed : close ∈ [']', '\x7d'])
  (reads : ∀ item ∈ left, ∀ {other first second}, Stops first → Stops second →
    write item ++ first = write other ++ second → view item = view other ∧ first = second)
include listed reads

/-- A list with a comma before each item is read item by item. -/
theorem commas_append_inj
    (same : (left.flatMap fun item => ',' :: write item) ++ close :: first =
      (right.flatMap fun item => ',' :: write item) ++ close :: second) :
    left.map view = right.map view ∧ first = second := by
  have closes : close ≠ ',' := by
    rintro rfl
    exact absurd listed (by decide)
  have stops (rest : List α) (more : List Char) :
      Stops ((rest.flatMap fun item => ',' :: write item) ++ close :: more) := by
    cases rest with
    | nil => exact stops_cons (List.mem_cons_of_mem _ listed) more
    | cons item rest => exact stops_cons List.mem_cons_self _
  induction left generalizing right with
  | nil =>
    cases right with
    | nil => exact ⟨rfl, (List.cons.inj same).2⟩
    | cons other others => exact absurd (List.cons.inj same).1 closes
  | cons item items ih =>
    cases right with
    | nil => exact absurd (List.cons.inj same).1.symm closes
    | cons other others =>
      simp only [List.flatMap_cons, List.cons_append, List.append_assoc, List.cons.injEq,
        true_and] at same
      obtain ⟨heads, rest⟩ := reads item List.mem_cons_self (stops _ _) (stops _ _) same
      obtain ⟨tails, rest⟩ := ih (fun other later => reads other (List.mem_cons_of_mem _ later)) rest
      exact ⟨by rw [List.map_cons, List.map_cons, heads, tails], rest⟩

/-- And so is one with commas between the items. -/
theorem commas_tail_append_inj (opens : ∀ item rest more, write item ++ rest ≠ close :: more)
    (same : (left.flatMap fun item => ',' :: write item).tail ++ close :: first =
      (right.flatMap fun item => ',' :: write item).tail ++ close :: second) :
    left.map view = right.map view ∧ first = second := by
  cases left with
  | nil =>
    cases right with
    | nil => exact ⟨rfl, (List.cons.inj same).2⟩
    | cons other others =>
      rw [List.flatMap_cons, List.cons_append, List.tail_cons, List.append_assoc] at same
      exact (opens _ _ _ same.symm).elim
  | cons item items =>
    cases right with
    | nil =>
      rw [List.flatMap_cons, List.cons_append, List.tail_cons, List.append_assoc] at same
      exact (opens _ _ _ same).elim
    | cons other others => exact commas_append_inj view listed reads (congrArg (',' :: ·) same)

end Lists

/-- The text of a value, read up to where it stops, shows the value. -/
theorem text_append_inj (left right : Value) (firstStops : Stops first) (secondStops : Stops second)
    (same : text escape.code format left ++ first = text escape.code format right ++ second) :
    seen left = seen right ∧ first = second := by
  have rightShape := shape right
  rw [← kindOf_eq_of_text same] at rightShape
  induction left using Value.induction generalizing right first second with
  | null => exact null_append_inj (shape .null) rightShape same
  | bool value =>
    cases value with
    | true =>
      obtain rfl : right = .bool true := rightShape
      exact ⟨rfl, List.append_cancel_left same⟩
    | false =>
      obtain rfl : right = .bool false := rightShape
      exact ⟨rfl, List.append_cancel_left same⟩
  | number value =>
    cases value with
    | nan => exact null_append_inj (shape (.number .nan)) rightShape same
    | infinity negative =>
      exact null_append_inj (shape (.number (.infinity negative))) rightShape same
    | finite number =>
      obtain ⟨other, rfl⟩ := rightShape
      obtain ⟨rfl, rest⟩ := number_append_inj firstStops secondStops same
      exact ⟨rfl, rest⟩
  | string value =>
    obtain ⟨other, rfl⟩ := rightShape
    obtain ⟨rfl, rest⟩ := quote_append_inj same
    exact ⟨rfl, rest⟩
  | array items ih =>
    obtain ⟨others, rfl⟩ := rightShape
    simp only [text, textItems_eq, List.cons_append, List.append_assoc, List.cons.injEq,
      true_and] at same
    obtain ⟨items, rest⟩ := commas_tail_append_inj seen (by decide)
      (fun item listed _ _ _ front back same => ih item listed _ front back same
        (kindOf_eq_of_text same ▸ shape _)) (fun _ _ _ => text_append_ne (by decide)) same
    exact ⟨by rw [seen, seen, seenItems_eq_map, seenItems_eq_map, items], rest⟩
  | object members ih =>
    obtain ⟨others, rfl⟩ := rightShape
    simp only [text, textMembers_eq, List.cons_append, List.append_assoc, List.cons.injEq,
      true_and] at same
    obtain ⟨members, rest⟩ := commas_tail_append_inj
      (fun member => (member.1, seen member.2)) (by decide)
      (fun member listed other first second front back same => by
        simp only [List.append_assoc] at same
        obtain ⟨keys, rest⟩ := quote_append_inj same
        have rest := (List.cons.inj rest).2
        obtain ⟨values, rest⟩ := ih member listed _ front back rest
          (kindOf_eq_of_text rest ▸ shape _)
        exact ⟨Prod.ext keys values, rest⟩)
      (fun _ _ _ same => absurd (List.cons.inj same).1 (by decide)) same
    exact ⟨by rw [seen, seen, seenMembers_eq_map, seenMembers_eq_map, members], rest⟩

/-- Values with the same text are the same to a reader. -/
theorem seen_eq_of_text (same : text escape.code format left = text escape.code format right) :
    seen left = seen right := by
  have joined : text escape.code format left ++ [] = text escape.code format right ++ [] := by
    rw [same]
  exact (text_append_inj left right stops_nil stops_nil joined).1

end Reading

section Escapes

def hexDigit (value : Nat) : Char := "0123456789abcdef".toList.getD value '0'

def hexValue (c : Char) : Nat := "0123456789abcdef".toList.idxOf c

/-- `\u` and four hexadecimal digits. -/
def unicodeEscape (code : Nat) : List Char :=
  ['\\', 'u', hexDigit (code / 4096 % 16), hexDigit (code / 256 % 16), hexDigit (code / 16 % 16),
    hexDigit (code % 16)]

def shortEscapes : List (Char × Char) :=
  [('"', '"'), ('\\', '\\'), ('\x08', 'b'), ('\x09', 't'), ('\x0a', 'n'), ('\x0c', 'f'),
    ('\x0d', 'r')]

/-- The characters of a string literal, as `JSON.stringify` writes them. -/
def escapeChar (c : Char) : List Char :=
  match shortEscapes.lookup c with
  | some letter => ['\\', letter]
  | none => if c.toNat < 32 then unicodeEscape c.toNat else [c]

def markup : List Char := ['<', '>', '&', '\u2028', '\u2029']

def escapeMarkup (c : Char) : List Char := if c ∈ markup then unicodeEscape c.toNat else [c]

def goCode (c : Char) : List Char := (escapeChar c).flatMap escapeMarkup

/-- Read one character of a literal back. -/
def unescape : List Char → Option (Char × List Char)
  | '\\' :: 'u' :: a :: b :: c :: d :: rest =>
    some (Char.ofNat (((hexValue a * 16 + hexValue b) * 16 + hexValue c) * 16 + hexValue d), rest)
  | '\\' :: 'b' :: rest => some ('\x08', rest)
  | '\\' :: 't' :: rest => some ('\x09', rest)
  | '\\' :: 'n' :: rest => some ('\x0a', rest)
  | '\\' :: 'f' :: rest => some ('\x0c', rest)
  | '\\' :: 'r' :: rest => some ('\x0d', rest)
  | '\\' :: c :: rest => some (c, rest)
  | c :: rest => some (c, rest)
  | [] => none

theorem hexValue_hexDigit : ∀ value < 16, hexValue (hexDigit value) = value := by decide

theorem unescape_unicodeEscape (small : c.toNat < 65536) (rest : List Char) :
    unescape (unicodeEscape c.toNat ++ rest) = some (c, rest) := by
  have digit : ∀ value, hexValue (hexDigit (value % 16)) = value % 16 := fun value =>
    hexValue_hexDigit _ (Nat.mod_lt _ (by decide))
  have code : ((c.toNat / 4096 % 16 * 16 + c.toNat / 256 % 16) * 16 + c.toNat / 16 % 16) * 16 +
      c.toNat % 16 = c.toNat := by omega
  simp only [unicodeEscape, List.cons_append, List.nil_append, unescape, digit, code,
    Char.ofNat_toNat]

theorem unescape_plain (plain : c ≠ '\\') (rest : List Char) :
    unescape (c :: rest) = some (c, rest) := by
  unfold unescape
  split
  case h_8 same =>
    cases same
    rfl
  all_goals
    rename_i same
    cases same
    try exact (plain rfl).elim

theorem flatMap_escapeMarkup {codes : List Char} (plain : ∀ c ∈ codes, c ∉ markup) :
    codes.flatMap escapeMarkup = codes := by
  induction codes with
  | nil => rfl
  | cons c codes ih =>
    rw [List.flatMap_cons, ih fun d member => plain d (List.mem_cons_of_mem _ member), escapeMarkup,
      if_neg (plain c List.mem_cons_self), List.singleton_append]

theorem hexDigit_notMem_markup : ∀ value < 16, hexDigit value ∉ markup := by decide

theorem unicodeEscape_plain (code : Nat) : ∀ c ∈ unicodeEscape code, c ∉ markup := by
  have digit : ∀ value, hexDigit (value % 16) ∉ markup := fun value =>
    hexDigit_notMem_markup _ (Nat.mod_lt _ (by decide))
  intro c member
  simp only [unicodeEscape, List.mem_cons, List.not_mem_nil, or_false] at member
  rcases member with rfl | rfl | rfl | rfl | rfl | rfl
  · decide
  · decide
  all_goals exact digit _

theorem escapeChar_cases (c : Char) :
    (∃ letter, (c, letter) ∈ shortEscapes ∧ escapeChar c = ['\\', letter]) ∨
      (c.toNat < 32 ∧ escapeChar c = unicodeEscape c.toNat) ∨
      (c ≠ '"' ∧ c ≠ '\\' ∧ escapeChar c = [c]) := by
  unfold escapeChar
  cases short : shortEscapes.lookup c with
  | some letter =>
    obtain ⟨front, back, table, _⟩ := List.lookup_eq_some_iff.mp short
    exact .inl ⟨letter, by simp [table], rfl⟩
  | none =>
    by_cases control : c.toNat < 32
    · exact .inr (.inl ⟨control, if_pos control⟩)
    · refine .inr (.inr ⟨?_, ?_, if_neg control⟩)
      · rintro rfl
        cases short
      · rintro rfl
        cases short

theorem unescape_short (short : (c, letter) ∈ shortEscapes) (rest : List Char) :
    unescape ('\\' :: letter :: rest) = some (c, rest) := by
  simp only [shortEscapes, List.mem_cons, List.not_mem_nil, or_false] at short
  rcases short with ⟨rfl, rfl⟩ | ⟨rfl, rfl⟩ | ⟨rfl, rfl⟩ | ⟨rfl, rfl⟩ | ⟨rfl, rfl⟩ | ⟨rfl, rfl⟩ |
    ⟨rfl, rfl⟩
  all_goals rfl

/-- Markup is escaped from literals only: the two escapes meet in no character. -/
theorem goCode_eq (c : Char) :
    goCode c = if c ∈ markup then unicodeEscape c.toNat else escapeChar c := by
  unfold goCode
  by_cases special : c ∈ markup
  · have alone : ∀ d ∈ markup, escapeChar d = [d] :=
      List.forall_iff_forall_mem.mp (by decide)
    rw [alone c special, List.flatMap_singleton, escapeMarkup, if_pos special]
  · rw [if_neg special]
    apply flatMap_escapeMarkup
    rcases escapeChar_cases c with ⟨letter, short, code⟩ | ⟨_, code⟩ | ⟨_, _, code⟩
    · have plain : ∀ pair ∈ shortEscapes, pair.2 ∉ markup := by decide
      rw [code]
      intro d member
      rcases List.mem_cons.mp member with rfl | last
      · decide
      · rw [List.mem_singleton.mp last]
        exact plain _ short
    · rw [code]
      exact unicodeEscape_plain _
    · rw [code]
      intro d member
      rwa [List.mem_singleton.mp member]

theorem unescape_escapeChar (c : Char) (rest : List Char) :
    unescape (escapeChar c ++ rest) = some (c, rest) := by
  rcases escapeChar_cases c with ⟨letter, short, code⟩ | ⟨control, code⟩ | ⟨_, slash, code⟩
  · rw [code]
    exact unescape_short short rest
  · rw [code]
    exact unescape_unicodeEscape (by omega) rest
  · rw [code]
    exact unescape_plain slash rest

theorem escapeChar_opens (c : Char) : ∃ head rest, escapeChar c = head :: rest ∧ head ≠ '"' := by
  rcases escapeChar_cases c with ⟨letter, _, code⟩ | ⟨_, code⟩ | ⟨notQuote, _, code⟩
  · exact ⟨'\\', _, code, by decide⟩
  · exact ⟨'\\', _, code, by decide⟩
  · exact ⟨c, _, code, notQuote⟩

/-- The literals of `JSON.stringify` are read back character by character. -/
def plainEscape : Escape where
  code := escapeChar
  opens := escapeChar_opens
  splits c d first second same := by
    have left := unescape_escapeChar c first
    rw [same, unescape_escapeChar] at left
    cases left
    exact ⟨rfl, rfl⟩

theorem unescape_goCode (c : Char) (rest : List Char) :
    unescape (goCode c ++ rest) = some (c, rest) := by
  rw [goCode_eq]
  by_cases special : c ∈ markup
  · have small : ∀ d ∈ markup, d.toNat < 65536 := List.forall_iff_forall_mem.mp (by decide)
    rw [if_pos special, unescape_unicodeEscape (small c special)]
  · rw [if_neg special, unescape_escapeChar]

theorem goCode_opens (c : Char) : ∃ head rest, goCode c = head :: rest ∧ head ≠ '"' := by
  rw [goCode_eq]
  by_cases special : c ∈ markup
  · rw [if_pos special]
    exact ⟨'\\', _, rfl, by decide⟩
  · rw [if_neg special]
    exact escapeChar_opens c

/-- The literals of a text with markup escapes are read back character by character. -/
def goEscape : Escape where
  code := goCode
  opens := goCode_opens
  splits c d first second same := by
    have left := unescape_goCode c first
    rw [same, unescape_goCode] at left
    cases left
    exact ⟨rfl, rfl⟩

variable {format : NumberFormat}

theorem quote_escapeMarkup (value : String) :
    (quote escapeChar value).flatMap escapeMarkup = quote goCode value := by
  simp only [quote, List.flatMap_cons, List.flatMap_append, List.flatMap_assoc]
  rfl

theorem format_escapeMarkup (value : ℚ) :
    (format.text value).flatMap escapeMarkup = format.text value := by
  apply flatMap_escapeMarkup
  intro c member
  have plain : ∀ d ∈ "0123456789+-.e".toList, d ∉ markup :=
    List.forall_iff_forall_mem.mp (by decide)
  exact plain c (format.digits value c member)

/-- The commas of a list are no markup. -/
theorem commas_escapeMarkup {α : Type} {write escaped : α → List Char} (items : List α)
    (each : ∀ item ∈ items, (write item).flatMap escapeMarkup = escaped item) :
    (items.flatMap fun item => ',' :: write item).tail.flatMap escapeMarkup =
      (items.flatMap fun item => ',' :: escaped item).tail := by
  have whole : (items.flatMap fun item => ',' :: write item).flatMap escapeMarkup =
      items.flatMap fun item => ',' :: escaped item := by
    rw [List.flatMap_assoc]
    refine List.flatMap_congr fun item listed => ?_
    rw [List.flatMap_cons, each item listed]
    rfl
  cases items with
  | nil => rfl
  | cons item rest =>
    rw [← whole]
    rfl

/-- Escaping the markup of a whole text escapes it in the literals. -/
theorem text_escapeMarkup (value : Value) :
    (text escapeChar format value).flatMap escapeMarkup = text goCode format value := by
  induction value using Value.induction with
  | null => rfl
  | bool value => cases value <;> rfl
  | number value =>
    cases value with
    | nan | infinity => rfl
    | finite value => exact format_escapeMarkup value
  | string value => exact quote_escapeMarkup value
  | array items ih =>
    rw [text, text, textItems_eq, textItems_eq, List.flatMap_cons, List.flatMap_append,
      commas_escapeMarkup items ih]
    rfl
  | object members ih =>
    rw [text, text, textMembers_eq, textMembers_eq, List.flatMap_cons, List.flatMap_append,
      commas_escapeMarkup members fun member listed => by
        rw [List.flatMap_append, quote_escapeMarkup, List.flatMap_cons, ih member listed]]
    rfl

end Escapes

section Decimals

/-- Whole numbers as `JSON.stringify` writes them, and others by numerator and denominator. -/
def decimalText (value : ℚ) : List Char :=
  ((if value.num < 0 then ['-'] else []) ++ Nat.toDigits 10 value.num.natAbs) ++
    if value.den = 1 then [] else 'e' :: Nat.toDigits 10 value.den

theorem toDigits_injective : Function.Injective (Nat.toDigits 10) := by
  intro first second same
  rw [← @Nat.ofDigitChars_ten_toDigits first, same, Nat.ofDigitChars_ten_toDigits]

theorem isDigit_toDigits (number : Nat) : ∀ c ∈ Nat.toDigits 10 number, c.isDigit = true :=
  fun _ member => Nat.isDigit_of_mem_toDigits (by decide) (by decide) member

theorem mem_digits (digit : c.isDigit = true) : c ∈ "0123456789".toList := by
  have bounds : 48 ≤ c.toNat ∧ c.toNat ≤ 57 := by
    simpa [Char.isDigit, UInt32.le_iff_toNat_le] using digit
  rw [← Char.ofNat_toNat c]
  obtain ⟨low, high⟩ := bounds
  interval_cases c.toNat <;> decide

theorem numerator_decimalText (value : ℚ) :
    ((decimalText value).takeWhile (· ≠ 'e')).filter Char.isDigit =
      Nat.toDigits 10 value.num.natAbs := by
  have plain : ∀ c ∈ (if value.num < 0 then ['-'] else []) ++ Nat.toDigits 10 value.num.natAbs,
      decide (c ≠ 'e') = true := by
    intro c member
    rcases List.mem_append.mp member with sign | digit
    · split_ifs at sign
      · rw [List.mem_singleton.mp sign]
        rfl
      · cases sign
    · apply decide_eq_true
      rintro rfl
      cases isDigit_toDigits _ _ digit
  have rest : (if value.den = 1 then [] else 'e' :: Nat.toDigits 10 value.den).takeWhile
      (· ≠ 'e') = [] := by
    split_ifs <;> rfl
  have sign : (if value.num < 0 then ['-'] else []).filter Char.isDigit = [] := by
    split_ifs <;> rfl
  rw [decimalText, List.takeWhile_append_of_pos plain, rest, List.append_nil, List.filter_append,
    sign, List.filter_eq_self.mpr (isDigit_toDigits _), List.nil_append]

theorem negative_iff_decimalText (value : ℚ) : value.num < 0 ↔ '-' ∈ decimalText value := by
  have unsigned (number : Nat) : '-' ∉ Nat.toDigits 10 number := by
    intro member
    cases isDigit_toDigits number _ member
  unfold decimalText
  split_ifs <;> simp_all

theorem decimalText_injective : Function.Injective decimalText := by
  intro left right same
  have signs : left.num < 0 ↔ right.num < 0 := by
    rw [negative_iff_decimalText, negative_iff_decimalText, same]
  have digits : Nat.toDigits 10 left.num.natAbs = Nat.toDigits 10 right.num.natAbs := by
    rw [← numerator_decimalText, same, numerator_decimalText]
  have sizes := toDigits_injective digits
  unfold decimalText at same
  rw [digits] at same
  simp only [signs, List.append_cancel_left_eq] at same
  have parts : left.den = right.den := by
    split_ifs at same with one other other
    · rw [one, other]
    · exact toDigits_injective (List.cons.inj same).2
  exact Rat.ext (by omega) parts

def decimalNumbers : NumberFormat where
  text := decimalText
  injective := decimalText_injective
  digits := by
    intro value c member
    have digit {number : Nat} (listed : c ∈ Nat.toDigits 10 number) :
        c ∈ "0123456789+-.e".toList :=
      List.mem_append_left ['+', '-', '.', 'e'] (mem_digits (isDigit_toDigits number c listed))
    unfold decimalText at member
    rcases List.mem_append.mp member with first | second
    · rcases List.mem_append.mp first with sign | listed
      · split_ifs at sign
        · rw [List.mem_singleton.mp sign]
          decide
        · cases sign
      · exact digit listed
    · split_ifs at second
      · cases second
      · rcases List.mem_cons.mp second with rfl | listed
        · decide
        · exact digit listed
  nonempty := by
    intro value empty
    simp [decimalText] at empty

end Decimals

end Json
