import Mathlib.Data.List.Lex
import Mathlib.Data.List.DropRight
import Mathlib.Data.Rat.Floor

/-! The part of JavaScript's number and string semantics the flow sources use. -/
namespace JavaScript

/-- A value of type Number. Both zeros are `finite 0`. -/
inductive Number where
  | nan
  | infinity (negative : Bool)
  | finite (value : ℚ)
  deriving DecidableEq

namespace Number

/-- `value || fallback`: NaN and zero are falsy. -/
def orElse (fallback : Number) : Number → Number
  | .nan => fallback
  | .finite value => if value = 0 then fallback else .finite value
  | other => other

/-- `Math.max(1, value)`. -/
def atLeastOne : Number → Number
  | .nan => .nan
  | .infinity negative => if negative then .finite 1 else .infinity false
  | .finite value => .finite (max 1 value)

/-- `count < value` for an integer counter. -/
def exceeds (count : Nat) : Number → Bool
  | .nan => false
  | .infinity negative => !negative
  | .finite value => decide ((count : ℚ) < value)

/-- The elements `queue.splice(0, Math.min(length, limit))` removes from the
front of an array of that length; the count is truncated to an integer. -/
def spliceCount (length : Nat) : Number → Nat
  | .nan => 0
  | .infinity negative => if negative then 0 else length
  | .finite value => min length ⌊value⌋₊

/-- A limit of at least one removes something whenever there is something. -/
theorem spliceCount_atLeastOne_pos (limit : Number) (proper : limit ≠ .nan) (some : 0 < length) :
    0 < spliceCount length (atLeastOne limit) := by
  cases limit with
  | nan => exact (proper rfl).elim
  | infinity negative => cases negative <;> simp [atLeastOne, spliceCount, some]
  | finite value =>
    have floor : 1 ≤ ⌊max 1 value⌋₊ := (Nat.one_le_floor_iff _).mpr (le_max_left 1 value)
    simp only [atLeastOne, spliceCount, lt_min_iff]
    exact ⟨some, floor⟩

end Number

/-- The byte order mark that a decoder drops. -/
def stripByteOrderMark (text : String) : String :=
  match text.toList with
  | '\uFEFF' :: rest => String.ofList rest
  | _ => text

/-- White space and line terminators, as `String.prototype.trim` strips them. -/
def isSpace (c : Char) : Bool :=
  [0x9, 0xA, 0xB, 0xC, 0xD, 0x20, 0xA0, 0x1680, 0x2028, 0x2029, 0x202F, 0x205F, 0x3000,
    0xFEFF].contains c.toNat || (decide (0x2000 ≤ c.toNat) && decide (c.toNat ≤ 0x200A))

def trim (text : String) : String :=
  String.ofList ((text.toList.dropWhile isSpace).reverse.dropWhile isSpace).reverse

theorem toList_trim (text : String) :
    (trim text).toList = (text.toList.dropWhile isSpace).rdropWhile isSpace := by
  rw [trim, String.toList_ofList, List.rdropWhile]

/-- A trimmed text starts with no white space. -/
theorem isSpace_head_trim (first : (trim text).toList.head? = some c) : isSpace c = false := by
  have opening := List.head?_dropWhile_not isSpace text.toList
  rw [toList_trim] at first
  obtain ⟨rest, whole⟩ : (text.toList.dropWhile isSpace).rdropWhile isSpace <+: _ :=
    List.rdropWhile_prefix isSpace (l := text.toList.dropWhile isSpace)
  obtain ⟨tail, trimmed⟩ := List.head?_eq_some_iff.mp first
  rw [← whole, trimmed] at opening
  exact opening

theorem trim_trim (text : String) : trim (trim text) = trim text := by
  apply String.toList_injective
  have opening : (trim text).toList.dropWhile isSpace = (trim text).toList := by
    cases shape : (trim text).toList with
    | nil => rfl
    | cons c rest =>
      have plain : isSpace c = false := isSpace_head_trim (congrArg List.head? shape)
      rw [List.dropWhile_cons, plain]
      rfl
  rw [toList_trim, opening, toList_trim, List.rdropWhile_idempotent]

theorem trim_eq_of_plain (plain : ∀ c ∈ text.toList, isSpace c = false) : trim text = text := by
  have front : text.toList.dropWhile isSpace = text.toList := by
    apply List.dropWhile_eq_self_iff.mpr
    intro filled
    simpa using plain _ (List.getElem_mem filled)
  have back : text.toList.rdropWhile isSpace = text.toList := by
    apply List.rdropWhile_eq_self_iff.mpr
    intro filled
    simpa using plain _ (List.getLast_mem filled)
  rw [← String.toList_inj, toList_trim, front, back]

/-- The lower case of a character, as far as it holds ASCII letters: beside those
only the Kelvin sign and the dotted capital I have one in it. -/
def lowered (c : Char) : List Char :=
  if c = '\u212A' then ['k'] else if c = '\u0130' then ['i', '\u0307'] else [c.toLower]

def toLowerCase (text : String) : String := String.ofList (text.toList.flatMap lowered)

theorem toLowerCase_of_small (small : ∀ c ∈ text.toList, c.toNat < 128) :
    toLowerCase text = String.ofList (text.toList.map Char.toLower) := by
  have one : ∀ c ∈ text.toList, lowered c = [c.toLower] := by
    intro c member
    have bound := small c member
    rw [lowered, if_neg, if_neg]
    · rintro rfl
      simp at bound
    · rintro rfl
      simp at bound
  rw [toLowerCase, List.flatMap_congr one, List.map_eq_flatMap]

def codeUnits (text : String) : List Nat :=
  text.toList.flatMap fun c =>
    if c.toNat < 0x10000 then [c.toNat]
    else [0xD800 + (c.toNat - 0x10000) / 0x400, 0xDC00 + (c.toNat - 0x10000) % 0x400]

theorem codeUnits_of_small (small : ∀ c ∈ text.toList, c.toNat < 0x10000) :
    codeUnits text = text.toList.map Char.toNat := by
  rw [List.map_eq_flatMap]
  exact List.flatMap_congr fun c member => if_pos (small c member)

/-- `sort()` of an array of strings. -/
def sorted (texts : List String) : List String :=
  texts.mergeSort fun left right => decide (codeUnits left ≤ codeUnits right)

/-- `join(separator)` for a separator of one character. -/
def join (separator : Char) (texts : List String) : String :=
  String.ofList (List.intercalate [separator] (texts.map String.toList))

/-- `split(separator)` for a separator of one character. -/
def split (separator : Char) (text : String) : List String :=
  (text.toList.splitOn separator).map String.ofList

/-- Texts without the separator are split as they were joined. -/
theorem split_join (plain : ∀ text ∈ texts, separator ∉ text.toList) (nonempty : texts ≠ []) :
    split separator (join separator texts) = texts := by
  have pieces : ∀ characters ∈ texts.map String.toList, separator ∉ characters := by
    intro characters member
    obtain ⟨text, inside, rfl⟩ := List.mem_map.mp member
    exact plain text inside
  rw [split, join, String.toList_ofList,
    List.splitOn_intercalate separator pieces (by simpa using nonempty), List.map_map]
  exact (List.map_congr_left fun text _ => String.ofList_toList).trans (List.map_id _)

/-- No part of a split text holds the separator. -/
theorem separator_notMem_split (member : part ∈ split separator text) :
    separator ∉ part.toList := by
  have pieces : ∀ characters : List Char, ∀ piece ∈ characters.splitOn separator,
      separator ∉ piece := by
    intro characters
    induction characters with
    | nil => simp
    | cons head rest ih =>
      intro piece inside
      rw [List.splitOn, List.splitOnP_cons_eq_if_modifyHead] at inside
      split_ifs at inside with same
      · rcases List.mem_cons.mp inside with rfl | later
        · exact List.not_mem_nil
        · exact ih piece later
      · -- the head joins the first piece of the rest
        cases front : rest.splitOnP (· == separator) with
        | nil => exact absurd front (List.splitOnP_ne_nil _ _)
        | cons first others =>
          rw [front] at inside
          have known : ∀ other ∈ first :: others, separator ∉ other := by
            rw [← front]
            exact ih
          rcases List.mem_cons.mp inside with rfl | later
          · rw [List.mem_cons, not_or]
            exact ⟨fun equal => same (by simp [equal]), known first List.mem_cons_self⟩
          · exact known piece (List.mem_cons_of_mem _ later)
  obtain ⟨piece, inside, rfl⟩ := List.mem_map.mp member
  rw [String.toList_ofList]
  exact pieces _ piece inside

end JavaScript
