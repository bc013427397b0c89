import Collections.Log.Severity
import Collections.Weak.RefType
import Mathlib.Data.List.Forall2
import Mathlib.Data.List.TakeWhile
import Mathlib.Data.Nat.Digits.Defs

/-!
# What enumerations read

A text starts with a token, the longest run of token bytes at its front (`Enumeration.Splits`). To
read an enumeration consumes the token (`Enumeration.splits_read`), and gives the value that the
grammar assigns to it (`Enumeration.means_iff`). The grammar (`Enumeration.Means`) knows numbers and
names. Which of them a token is depends on its first byte alone, so a token that starts as a number
is never a name.

This is so for types of numbers. A type of characters takes a digit for its code, and reads no
number of a run that ends before the codes of the digits (`Enumeration.ofToken_of_characters`). Its
names are read as those of any other type.

An enumeration is printable if its names are tokens that are no numbers, and differ by more than
case. A name that is printed is read again, in whatever case it is written, if case does not matter
(`enumeration_reads_its_grammar`). Severities and kinds of references are printable
(`Log.Severity.read_name`, `Weak.RefType.read_name`).
-/

set_option autoImplicit false

namespace Collections

namespace Bytes

variable {left right byte : UInt8}

/-! ## Digits and letters -/

/-- The number that a text of decimal digits denotes. -/
def decimal (text : Bytes) : Nat := Nat.ofDigits 10 (text.map fun byte => byte.toNat - 48).reverse

/-- Bytes are alike if they are the same or one letter, capital or not. -/
def Alike (left right : UInt8) : Prop :=
  left = right ∨ isLower left = true ∧ right = left - 32 ∨ isLower right = true ∧ left = right - 32

theorem isDigit_iff : isDigit byte = true ↔ 48 ≤ byte.toNat ∧ byte.toNat ≤ 57 := by
  simp [isDigit, UInt8.le_iff_toNat_le]

theorem isUpper_iff : isUpper byte = true ↔ 65 ≤ byte.toNat ∧ byte.toNat ≤ 90 := by
  simp [isUpper, UInt8.le_iff_toNat_le]

theorem isLower_iff : isLower byte = true ↔ 97 ≤ byte.toNat ∧ byte.toNat ≤ 122 := by
  simp [isLower, UInt8.le_iff_toNat_le]

theorem toNat_capital (lower : isLower byte = true) : (byte - 32).toNat = byte.toNat - 32 := by
  obtain ⟨least, -⟩ := isLower_iff.mp lower
  refine UInt8.toNat_sub_of_le _ _ ?_
  rw [UInt8.le_iff_toNat_le]
  exact Nat.le_trans (by decide) least

theorem isLower_capital (lower : isLower byte = true) : isLower (byte - 32) = false := by
  have bounds := isLower_iff.mp lower
  rw [Bool.eq_false_iff, Ne, isLower_iff, toNat_capital lower]
  omega

theorem isUpper_capital (lower : isLower byte = true) : isUpper (byte - 32) = true := by
  have bounds := isLower_iff.mp lower
  rw [isUpper_iff, toNat_capital lower]
  omega

/-- Bytes are alike if their capitals are the same. -/
theorem upperByte_eq_iff : upperByte left = upperByte right ↔ Alike left right := by
  have capitalLeft := @isLower_capital left
  have capitalRight := @isLower_capital right
  have cancel : left - 32 = right - 32 ↔ left = right := UInt8.sub_left_inj 32
  unfold upperByte Alike
  cases lower : isLower left <;> cases lowerRight : isLower right <;> grind

/-- Texts have the same capitals if their bytes are alike, each to the one at its place. -/
theorem upper_eq_iff {left right : Bytes} : upper left = upper right ↔ List.Forall₂ Alike left right := by
  rw [upper, upper, ← List.forall₂_eq_eq_eq, List.forall₂_map_left_iff, List.forall₂_map_right_iff]
  simp only [upperByte_eq_iff]

theorem equalsIgnoringCase_iff {left right : Bytes} :
    equalsIgnoringCase left right = true ↔ List.Forall₂ Alike left right := by
  rw [equalsIgnoringCase, beq_iff_eq, upper_eq_iff]

theorem isDigit_upperByte (byte : UInt8) : isDigit (upperByte byte) = isDigit byte := by
  rw [upperByte]
  split
  next lower =>
    have bounds := isLower_iff.mp lower
    rw [Bool.eq_iff_iff, isDigit_iff, isDigit_iff, toNat_capital lower]
    omega
  next => rfl

theorem isAlphanumeric_upperByte (byte : UInt8) :
    isAlphanumeric (upperByte byte) = isAlphanumeric byte := by
  rw [upperByte]
  split
  next lower => simp [isAlphanumeric, lower, isUpper_capital lower]
  next => rfl

namespace Alike

theorem isDigit_eq (alike : Alike left right) : isDigit right = isDigit left := by
  rw [← isDigit_upperByte right, ← isDigit_upperByte left, upperByte_eq_iff.mpr alike]

theorem isToken_eq (alike : Alike left right) :
    Enumeration.isToken right = Enumeration.isToken left := by
  have known : ∀ byte, Enumeration.isToken (upperByte byte) = Enumeration.isToken byte := by
    intro byte
    rw [Enumeration.isToken, Enumeration.isToken, isAlphanumeric_upperByte, upperByte]
    split
    next lower => simp [isAlphanumeric, lower]
    next => rfl
  rw [← known right, ← known left, upperByte_eq_iff.mpr alike]

end Alike

/-- A text of digits is the number that it denotes. -/
theorem number?_eq_some_iff {text : Bytes} {value : Nat} :
    Enumeration.number? text = some value ↔
      text ≠ [] ∧ (∀ byte ∈ text, isDigit byte = true) ∧ decimal text = value := by
  have folded : text.foldl (fun value byte => value * 10 + (byte.toNat - 48)) 0 = decimal text := by
    rw [decimal, Nat.ofDigits_eq_foldr, List.foldr_reverse, List.foldl_map]
    congr
    funext value byte
    rw [Nat.mul_comm, Nat.add_comm]
    rfl
  rw [Enumeration.number?, folded]
  cases text with
  | nil => simp
  | cons first rest => simp [and_assoc]

end Bytes

namespace Enumeration

/-! ## Tokens -/

/-- A text is a token and a rest, and no more of the text is made of token bytes. -/
structure Splits (text token rest : Bytes) : Prop where
  whole : token ++ rest = text
  inside : ∀ byte ∈ token, isToken byte = true
  longest : ∀ front, front <+: text → (∀ byte ∈ front, isToken byte = true) → front <+: token

/-- **What is consumed is the token.** -/
theorem splits_read (family : Enumeration) (text : Bytes) :
    Splits text (text.takeWhile isToken) (family.read text).2 where
  whole := family.token_append_rest text
  inside _ member := List.mem_takeWhile_imp member
  longest := by
    rintro front ⟨rest, rfl⟩ inside
    rw [List.takeWhile_append_of_pos inside]
    exact List.prefix_append _ _

theorem read_append (family : Enumeration) {token rest : Bytes}
    (inside : ∀ byte ∈ token, isToken byte = true)
    (outside : ∀ byte ∈ rest.head?, isToken byte = false) :
    family.read (token ++ rest) = (family.ofToken token, rest) := by
  have stays : rest.takeWhile isToken = [] ∧ rest.dropWhile isToken = rest := by
    cases rest with
    | nil => exact ⟨rfl, rfl⟩
    | cons byte others =>
        have stops := outside byte rfl
        exact ⟨List.takeWhile_cons_of_neg (by simp [stops]),
          List.dropWhile_cons_of_neg (by simp [stops])⟩
  rw [read, List.takeWhile_append_of_pos inside, List.dropWhile_append_of_pos inside, stays.1,
    stays.2, List.append_nil]

/-! ## The grammar -/

/-- A number is in the run of an enumeration. -/
def InRun (family : Enumeration) (value : Nat) : Prop :=
  family.lowest ≤ value ∧ value < family.sentinel

/-- A token is to be a number: numbers are accepted, and it starts with a digit. -/
def Counts (family : Enumeration) (token : Bytes) : Prop :=
  family.acceptsNumbers = true ∧ ∃ first ∈ token.head?, Bytes.isDigit first = true

/-- A token denotes a number that the type holds and that is in the run. -/
structure Denotes (family : Enumeration) (token : Bytes) (value : Nat) : Prop where
  digits : ∀ byte ∈ token, Bytes.isDigit byte = true
  decimal : Bytes.decimal token = value
  fits : value ≤ family.largest
  inRun : family.InRun value

/-- A token is a spelling of a name: the name itself, or the name up to ASCII case if case does not
matter. -/
def Spells (family : Enumeration) (name token : Bytes) : Prop :=
  if family.caseSensitive then token = name else List.Forall₂ Bytes.Alike name token

/-- The value of a token. -/
inductive Means (family : Enumeration) : Bytes → Int → Prop where
  | nothing : Means family [] family.fallback
  | number {token : Bytes} {value : Nat} (counts : family.Counts token)
      (denotes : family.Denotes token value) : Means family token value
  | noNumber {token : Bytes} (counts : family.Counts token)
      (none : ∀ value, ¬ family.Denotes token value) : Means family token family.fallback
  /-- The lowest value of which the token spells the name. -/
  | name {token : Bytes} {value : Nat} (some : token ≠ []) (names : ¬ family.Counts token)
      (inRun : family.InRun value) (spells : family.Spells (family.nameOf value) token)
      (lowest : ∀ smaller < value, family.InRun smaller →
        ¬ family.Spells (family.nameOf smaller) token) : Means family token value
  | noName {token : Bytes} (some : token ≠ []) (names : ¬ family.Counts token)
      (none : ∀ value, family.InRun value → ¬ family.Spells (family.nameOf value) token) :
      Means family token family.fallback

variable {family : Enumeration} {token name : Bytes} {value : Nat} {result : Int}

instance decidableInRun : Decidable (family.InRun value) := inferInstanceAs (Decidable (_ ∧ _))

theorem sameName_iff : family.sameName name token = true ↔ family.Spells name token := by
  rw [sameName, Spells]
  split
  · rw [beq_iff_eq, eq_comm]
  · exact Bytes.equalsIgnoringCase_iff

theorem mem_values : value ∈ family.values ↔ family.InRun value := by
  rw [values, InRun, List.mem_range'_1]
  omega

theorem convert?_of_numbers (numbers : family.ofCharacters = false) :
    family.convert? token = number? token := by
  rw [convert?, numbers]
  rfl

theorem ofNumber_of_denotes (numbers : family.ofCharacters = false) (some : token ≠ [])
    (denotes : family.Denotes token value) : family.ofNumber token = value := by
  rw [ofNumber, convert?_of_numbers numbers,
    Bytes.number?_eq_some_iff.mpr ⟨some, denotes.digits, denotes.decimal⟩]
  exact if_pos ⟨denotes.fits, denotes.inRun⟩

theorem ofNumber_of_none (numbers : family.ofCharacters = false)
    (none : ∀ value, ¬ family.Denotes token value) : family.ofNumber token = family.fallback := by
  rw [ofNumber, convert?_of_numbers numbers]
  cases read : number? token with
  | none => rfl
  | some value =>
      obtain ⟨-, digits, decimal⟩ := Bytes.number?_eq_some_iff.mp read
      exact if_neg fun ⟨fits, inRun⟩ => none value ⟨digits, decimal, fits, inRun⟩

theorem ofName_of_spells (inRun : family.InRun value)
    (spells : family.Spells (family.nameOf value) token)
    (lowest : ∀ smaller < value, family.InRun smaller →
      ¬ family.Spells (family.nameOf smaller) token) : family.ofName token = value := by
  have found : family.values.find? (fun value => family.sameName (family.nameOf value) token) =
      some value := by
    refine List.find?_range'_eq_some.mpr ⟨sameName_iff.mpr spells, mem_values.mpr inRun, ?_⟩
    intro smaller beyond before
    have inside : family.InRun smaller := ⟨beyond, Nat.lt_trans before inRun.2⟩
    simpa [← sameName_iff] using lowest smaller before inside
  rw [ofName, found]

theorem ofName_of_none
    (none : ∀ value, family.InRun value → ¬ family.Spells (family.nameOf value) token) :
    family.ofName token = family.fallback := by
  have missed : family.values.find? (fun value => family.sameName (family.nameOf value) token) =
      Option.none := by
    refine List.find?_eq_none.mpr ?_
    intro value member
    rw [sameName_iff]
    exact none value (mem_values.mp member)
  rw [ofName, missed]

theorem ofToken_of_counts (counts : family.Counts token) :
    family.ofToken token = family.ofNumber token := by
  obtain ⟨accepts, first, here, digit⟩ := counts
  obtain ⟨rest, rfl⟩ := List.head?_eq_some_iff.mp here
  rw [ofToken, if_pos (by rw [accepts, digit]; rfl)]

theorem ofToken_of_not_counts (some : token ≠ []) (names : ¬ family.Counts token) :
    family.ofToken token = family.ofName token := by
  cases token with
  | nil => exact absurd rfl some
  | cons first rest =>
      refine if_neg fun counts => names ?_
      obtain ⟨accepts, digit⟩ := Bool.and_eq_true_iff.mp counts
      exact ⟨accepts, first, rfl, digit⟩

/-- A type of characters reads no number of a run that ends before the codes of the digits. -/
theorem ofToken_of_characters (characters : family.ofCharacters = true)
    (early : family.sentinel ≤ 48) (counts : family.Counts token) :
    family.ofToken token = family.fallback := by
  obtain ⟨-, first, here, digit⟩ := id counts
  obtain ⟨rest, rfl⟩ := List.head?_eq_some_iff.mp here
  rw [ofToken_of_counts counts, ofNumber, convert?, if_pos characters]
  cases rest with
  | nil =>
      have least := (Bytes.isDigit_iff.mp digit).1
      exact if_neg fun ⟨_, _, before⟩ => Nat.not_lt.mpr (Nat.le_trans early least) before
  | cons => rfl

/-- **A token has the value that the grammar assigns to it.** -/
theorem Means.ofToken_eq (numbers : family.ofCharacters = false)
    (means : family.Means token result) : family.ofToken token = result := by
  cases means with
  | nothing => rfl
  | number counts denotes =>
      have some : token ≠ [] := by
        rintro rfl
        obtain ⟨-, first, none, -⟩ := counts
        cases none
      rw [ofToken_of_counts counts, ofNumber_of_denotes numbers some denotes]
  | noNumber counts none => rw [ofToken_of_counts counts, ofNumber_of_none numbers none]
  | name some names inRun spells lowest =>
      rw [ofToken_of_not_counts some names, ofName_of_spells inRun spells lowest]
  | noName some names none => rw [ofToken_of_not_counts some names, ofName_of_none none]

/-- **The grammar assigns a value to every token.** -/
theorem exists_means (family : Enumeration) (token : Bytes) : ∃ result, family.Means token result := by
  by_cases counts : family.Counts token
  · by_cases some : ∃ value, family.Denotes token value
    · obtain ⟨value, denotes⟩ := some
      exact ⟨value, .number counts denotes⟩
    · exact ⟨_, .noNumber counts (not_exists.mp some)⟩
  · by_cases empty : token = []
    · subst empty
      exact ⟨_, .nothing⟩
    · by_cases named : ∃ value, family.InRun value ∧ family.Spells (family.nameOf value) token
      · classical
        obtain ⟨inRun, spells⟩ := Nat.find_spec named
        refine ⟨_, .name empty counts inRun spells ?_⟩
        intro smaller before inside again
        exact Nat.find_min named before ⟨inside, again⟩
      · exact ⟨_, .noName empty counts fun value inRun spells => named ⟨value, inRun, spells⟩⟩

theorem means_iff (numbers : family.ofCharacters = false) :
    family.Means token result ↔ family.ofToken token = result := by
  constructor
  · exact Means.ofToken_eq numbers
  · rintro rfl
    obtain ⟨result, means⟩ := family.exists_means token
    rwa [means.ofToken_eq numbers]

/-! ## Names that are read again -/

/-- The names are tokens and no numbers, and differ by more than case. -/
structure Printable (family : Enumeration) : Prop where
  nonempty : ∀ value, family.InRun value → family.nameOf value ≠ []
  inside : ∀ value, family.InRun value → ∀ byte ∈ family.nameOf value, isToken byte = true
  noDigit : ∀ value, family.InRun value → ∀ first ∈ (family.nameOf value).head?,
    Bytes.isDigit first = false
  apart : ∀ value other, family.InRun value → family.InRun other →
    List.Forall₂ Bytes.Alike (family.nameOf value) (family.nameOf other) → value = other

theorem Spells.upper_eq (spells : family.Spells name token) : Bytes.upper token = Bytes.upper name := by
  rw [Spells] at spells
  split at spells
  · rw [spells]
  · exact (Bytes.upper_eq_iff.mpr spells).symm

theorem isToken_of_alike {written : Bytes} (alike : List.Forall₂ Bytes.Alike name written)
    (inside : ∀ byte ∈ name, isToken byte = true) : ∀ byte ∈ written, isToken byte = true := by
  induction alike with
  | nil => exact inside
  | cons same rest ih =>
      obtain ⟨first, others⟩ := List.forall_mem_cons.mp inside
      exact List.forall_mem_cons.mpr ⟨same.isToken_eq.trans first, ih others⟩

namespace Printable

variable {written : Bytes} (printable : family.Printable) (inRun : family.InRun value)
  (alike : List.Forall₂ Bytes.Alike (family.nameOf value) written)
include printable inRun alike

/-- A name is no number, in whatever case it is written. -/
theorem not_counts : written ≠ [] ∧ ¬ family.Counts written := by
  have nonempty := printable.nonempty value inRun
  have noDigit := printable.noDigit value inRun
  generalize family.nameOf value = name at alike nonempty noDigit
  cases alike with
  | nil => exact absurd rfl nonempty
  | @cons first byte name others same rest =>
      refine ⟨List.cons_ne_nil _ _, ?_⟩
      rintro ⟨-, head, here, digit⟩
      obtain rfl : byte = head := Option.some.inj here
      rw [same.isDigit_eq, noDigit first rfl] at digit
      cases digit

/-- No other name is written alike. -/
theorem eq_of_spells {other : Nat} (inside : family.InRun other)
    (spells : family.Spells (family.nameOf other) written) : other = value := by
  have same := spells.upper_eq.symm.trans (Bytes.upper_eq_iff.mpr alike).symm
  exact printable.apart other value inside inRun (Bytes.upper_eq_iff.mp same)

/-- **A name that is written in some case has its value**, unless case matters and it is another
case. -/
theorem ofToken_eq :
    family.ofToken written =
      if family.caseSensitive = true ∧ written ≠ family.nameOf value then family.fallback
      else value := by
  obtain ⟨some, names⟩ := printable.not_counts inRun alike
  rw [ofToken_of_not_counts some names]
  split
  next differs =>
    refine ofName_of_none ?_
    intro other inside spells
    obtain rfl := printable.eq_of_spells inRun alike inside spells
    rw [Spells, if_pos differs.1] at spells
    exact differs.2 spells
  next agrees =>
    have spells : family.Spells (family.nameOf value) written := by
      rw [Spells]
      split
      next matters => exact not_not.mp fun differs => agrees ⟨matters, differs⟩
      next => exact alike
    refine ofName_of_spells inRun spells ?_
    intro smaller before inside again
    exact Nat.ne_of_lt before (printable.eq_of_spells inRun alike inside again)

/-- A name that is written in some case is read at the front of a text. -/
theorem read_eq {rest : Bytes} (outside : ∀ byte ∈ rest.head?, isToken byte = false) :
    family.read (written ++ rest) =
      (if family.caseSensitive = true ∧ written ≠ family.nameOf value then family.fallback
        else value, rest) := by
  have inside := isToken_of_alike alike (printable.inside value inRun)
  rw [family.read_append inside outside, printable.ofToken_eq inRun alike]

end Printable

/-- Whether names are printable can be decided by going through all numbers before the end. -/
theorem printable_of_forall
    (names : ∀ value < family.sentinel, family.nameOf value ≠ [] ∧
      (∀ byte ∈ family.nameOf value, isToken byte = true) ∧
      ∀ first ∈ (family.nameOf value).head?, Bytes.isDigit first = false)
    (apart : ∀ value < family.sentinel, ∀ other < family.sentinel,
      Bytes.upper (family.nameOf value) = Bytes.upper (family.nameOf other) → value = other) :
    family.Printable where
  nonempty value inRun := (names value inRun.2).1
  inside value inRun := (names value inRun.2).2.1
  noDigit value inRun := (names value inRun.2).2.2
  apart value other inRun inside alike :=
    apart value inRun.2 other inside.2 (Bytes.upper_eq_iff.mpr alike)

end Enumeration

namespace Log.Severity

theorem printable : enumeration.Printable :=
  Enumeration.printable_of_forall (by decide +kernel) (by decide +kernel)

/-- A severity that is printed is read again, in whatever case it is written. -/
theorem read_name (severity : Severity) {written rest : Bytes}
    (alike : List.Forall₂ Bytes.Alike (Bytes.ofString severity.name) written)
    (outside : ∀ byte ∈ rest.head?, Enumeration.isToken byte = false) :
    read (written ++ rest) = severity := by
  have inRun : enumeration.InRun severity.rank := by cases severity <;> decide
  have named : enumeration.nameOf severity.rank = Bytes.ofString severity.name :=
    congrArg (fun found : Severity => Bytes.ofString found.name) severity.ofRank_rank
  rw [read, printable.read_eq inRun (named ▸ alike) outside,
    if_neg fun matters => Bool.false_ne_true matters.1]
  exact severity.ofRank_rank

end Log.Severity

namespace Weak.RefType

theorem printable : enumeration.Printable :=
  Enumeration.printable_of_forall (by decide +kernel) (by decide +kernel)

/-- A kind that is printed is read again, in whatever case it is written. -/
theorem read_name (kind : RefType) {written rest : Bytes}
    (alike : List.Forall₂ Bytes.Alike (Bytes.ofString kind.name) written)
    (outside : ∀ byte ∈ rest.head?, Enumeration.isToken byte = false) :
    read (written ++ rest) = kind := by
  have inRun : enumeration.InRun kind.number := by cases kind <;> decide
  have named : enumeration.nameOf kind.number = Bytes.ofString kind.name :=
    congrArg (fun found : RefType => Bytes.ofString found.name) kind.ofNumber_number
  rw [read, printable.read_eq inRun (named ▸ alike) outside,
    if_neg fun matters => Bool.false_ne_true matters.1]
  exact kind.ofNumber_number

end Weak.RefType

/-- **To read an enumeration is to parse its grammar.** What is consumed is the token at the front
of the text. The value is the one that the grammar assigns to that token, if the type is one of
numbers.

If the names are tokens that are no numbers and differ by more than case, each name is read again,
in whatever case it is written and whatever follows that is not part of the token. Where case
matters, this is so for the name itself, and in any other case it gives the default. -/
theorem enumeration_reads_its_grammar (family : Enumeration) :
    (∀ text, ∃ token rest, Enumeration.Splits text token rest ∧ (family.read text).2 = rest ∧
      (family.ofCharacters = false →
        ∀ result, (family.read text).1 = result ↔ family.Means token result)) ∧
    (family.Printable → ∀ value, family.InRun value → ∀ written rest : Bytes,
      List.Forall₂ Bytes.Alike (family.nameOf value) written →
      (∀ byte ∈ rest.head?, Enumeration.isToken byte = false) →
      family.read (written ++ rest) =
        (if family.caseSensitive = true ∧ written ≠ family.nameOf value then family.fallback
          else value, rest)) := by
  constructor
  · intro text
    exact ⟨_, _, family.splits_read text, rfl, fun numbers result =>
      (Enumeration.means_iff numbers).symm⟩
  · intro printable value inRun written rest alike outside
    exact printable.read_eq inRun alike outside

/-- The names "MixedCase" and "DUP", of the values four and five. -/
def mixedNames (caseSensitive : Bool) : Enumeration where
  nameOf value := if value = 4 then [77, 105, 120, 101, 100, 67, 97, 115, 101] else [68, 85, 80]
  lowest := 4
  sentinel := 6
  largest := 2147483647
  caseSensitive := caseSensitive

/-- The text "mixedcase". -/
def mixedLower : Bytes := [109, 105, 120, 101, 100, 99, 97, 115, 101]

theorem printable_mixedNames (caseSensitive : Bool) : (mixedNames caseSensitive).Printable := by
  have cases_of_inRun : ∀ value, (mixedNames caseSensitive).InRun value → value = 4 ∨ value = 5 := by
    rintro value ⟨beyond, before⟩
    have least : 4 ≤ value := beyond
    have most : value < 6 := before
    omega
  refine ⟨?_, ?_, ?_, ?_⟩
  · intro value inRun
    obtain rfl | rfl := cases_of_inRun value inRun <;> exact List.cons_ne_nil _ _
  · intro value inRun
    obtain rfl | rfl := cases_of_inRun value inRun <;> exact List.all_eq_true.mp rfl
  · intro value inRun first here
    obtain rfl | rfl := cases_of_inRun value inRun <;> cases here <;> rfl
  · intro value other inRun inside alike
    have lengths := alike.length_eq
    obtain rfl | rfl := cases_of_inRun value inRun <;>
      obtain rfl | rfl := cases_of_inRun other inside <;> first | rfl | cases lengths

theorem outside_comma : ∀ byte ∈ [(44 : UInt8)].head?, Enumeration.isToken byte = false := by
  intro byte here
  cases here
  rfl

theorem alike_mixedLower (caseSensitive : Bool) :
    List.Forall₂ Bytes.Alike ((mixedNames caseSensitive).nameOf 4) mixedLower :=
  Bytes.upper_eq_iff.mp rfl

/-- A name is not read again in whatever case it is written, if case matters. -/
theorem names_are_not_read_in_every_case :
    ¬ ∀ family : Enumeration, family.ofCharacters = false → family.Printable → ∀ value, family.InRun value →
      ∀ written rest : Bytes, List.Forall₂ Bytes.Alike (family.nameOf value) written →
        (∀ byte ∈ rest.head?, Enumeration.isToken byte = false) →
        family.read (written ++ rest) = ((value : Int), rest) := by
  intro always
  have inRun : (mixedNames true).InRun 4 := by decide
  have read := always (mixedNames true) rfl (printable_mixedNames true) 4 inRun mixedLower [44]
    (alike_mixedLower true) outside_comma
  exact absurd read (by decide)

/-- The first name in small letters is read if case does not matter, and gives the default if it
does. The second value is read from its number. -/
theorem enumeration_reads_its_grammar_mixedNames :
    (mixedNames false).Printable ∧ (mixedNames true).Printable ∧
      List.Forall₂ Bytes.Alike ((mixedNames true).nameOf 4) mixedLower ∧
      (mixedNames false).read (mixedLower ++ [44]) = (4, [44]) ∧
      (mixedNames true).read (mixedLower ++ [44]) = (0, [44]) ∧
      (mixedNames true).read ((mixedNames true).nameOf 4) = (4, []) ∧
      ∃ token rest, Enumeration.Splits [53, 44] token rest ∧ (mixedNames true).Means token 5 := by
  obtain ⟨-, small⟩ := enumeration_reads_its_grammar (mixedNames false)
  obtain ⟨parses, strict⟩ := enumeration_reads_its_grammar (mixedNames true)
  have inRun : (mixedNames false).InRun 4 ∧ (mixedNames true).InRun 4 := by decide
  have itself : List.Forall₂ Bytes.Alike ((mixedNames true).nameOf 4) ((mixedNames true).nameOf 4) :=
    Bytes.upper_eq_iff.mp rfl
  refine ⟨printable_mixedNames false, printable_mixedNames true, alike_mixedLower true,
    small (printable_mixedNames false) 4 inRun.1 mixedLower [44] (alike_mixedLower false) outside_comma,
    strict (printable_mixedNames true) 4 inRun.2 mixedLower [44] (alike_mixedLower true) outside_comma,
    ?_, ?_⟩
  · exact strict (printable_mixedNames true) 4 inRun.2 _ [] itself fun _ none => by cases none
  · obtain ⟨token, rest, splits, -, means⟩ := parses [53, 44]
    exact ⟨token, rest, splits, (means rfl 5).mp (by decide)⟩

end Collections
