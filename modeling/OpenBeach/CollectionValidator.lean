import Mathlib.Algebra.Ring.Nat
import Mathlib.Data.List.DropRight
import OpenBeach.NFTService

/-!
# Validating a request for a collection

The validator checks the body of a request against a schema: the fields in their order,
then keys the schema does not know, and it reports the first violation. The library is a
parameter as far as it decides what a URI is and words its messages.
-/

namespace OpenBeach

/-- `length`: a character beyond the basic plane counts twice. The lengths of the schema are
counted in these units. -/
def utf16Length (text : String) : Nat :=
  (text.toList.map fun c => if c.toNat < 0x10000 then 1 else 2).sum

/-- What `trim` removes. These are the white space and the line ends of the language. -/
def isWhitespace (c : Char) : Bool :=
  c.toNat ∈ [0x9, 0xA, 0xB, 0xC, 0xD, 0x20, 0xA0, 0x1680, 0x2028, 0x2029, 0x202F, 0x205F, 0x3000,
    0xFEFF] || (0x2000 ≤ c.toNat && c.toNat ≤ 0x200A)

/-- `trim`: white space at both ends is removed. What is between other characters stays. -/
def trim (text : String) : String :=
  String.ofList ((text.toList.dropWhile isWhitespace).rdropWhile isWhitespace)

/-- A field of an object; a missing one is undefined. The first one counts, where a name occurs
twice. -/
def lookupField (fields : List (String × JsValue)) (key : String) : JsValue :=
  (fields.lookup key).getD .undefined

/-- The rules the schema uses. Each is checked on the values that the rules before it let pass. -/
inductive Rule where
  | required
  | base
  | empty
  | min (limit : Nat)
  | max (limit : Nat)
  | uri
  | only (values : List String)
  | unknown
deriving DecidableEq

/-- A violation: the path and its rule. The text of the message is made from both. -/
structure Violation where
  label : String
  rule : Rule
deriving DecidableEq

/-- The validation library, as far as the schema uses it. Which texts are URIs, and how a
violation is put into words, is left to it. -/
structure Joi where
  isUri : String → Bool
  message : Violation → String

namespace CollectionValidator

/-- `Joi.string()` with the rules of a field. What is not given is not checked. -/
structure StringSchema where
  required : Bool
  min : Option Nat
  max : Option Nat
  uri : Bool

/-- The rules of a nonempty string, in their order. The first rule that is broken is reported. -/
def checkText (joi : Joi) (schema : StringSchema) (text : String) : Option Rule :=
  match schema.min.filter fun limit => utf16Length text < limit with
  | some limit => some (.min limit)
  | none =>
    match schema.max.filter fun limit => limit < utf16Length text with
    | some limit => some (.max limit)
    | none => if schema.uri && !joi.isUri text then some .uri else none

/-- A field of type string. An empty text is refused also where the field may be missing. -/
def checkString (joi : Joi) (schema : StringSchema) : JsValue → Option Rule
  | .undefined => if schema.required then some .required else none
  | .string text => if text = "" then some .empty else checkText joi schema text
  | _ => some .base

/-- A required field with certain values only. The rule on the values replaces that on the type. -/
def checkValid (values : List String) : JsValue → Option Rule
  | .undefined => some .required
  | .string text => if text ∈ values then none else some (.only values)
  | _ => some (.only values)

/-- The categories a collection may have. The schema of the database has the same ones. -/
def categories : List String := ["art", "gaming", "music", "sports", "photography"]

/-- What Joi asks of a name. The numbers are those of the source. -/
def nameSchema : StringSchema := { required := true, min := some 3, max := some 50, uri := false }

/-- What Joi asks of a symbol. The numbers are those of the source. -/
def symbolSchema : StringSchema := { required := true, min := some 2, max := some 10, uri := false }

/-- What Joi asks of a description, if there is one. There is no least length, but an empty text
is refused. -/
def descriptionSchema : StringSchema :=
  { required := false, min := none, max := some 1000, uri := false }

/-- What Joi asks of each of the three links, if there is one. Which texts are links is left to
the library. -/
def urlSchema : StringSchema := { required := false, min := none, max := none, uri := true }

/-- The fields of the schema, in their order. The order decides which violation is reported. -/
def schema (joi : Joi) : List (String × (JsValue → Option Rule)) :=
  [("name", checkString joi nameSchema), ("symbol", checkString joi symbolSchema),
    ("description", checkString joi descriptionSchema), ("category", checkValid categories),
    ("websiteUrl", checkString joi urlSchema), ("discordUrl", checkString joi urlSchema),
    ("twitterUrl", checkString joi urlSchema)]

/-- The keys of the schema. Any other key of the body is a violation. -/
def keys : List String :=
  ["name", "symbol", "description", "category", "websiteUrl", "discordUrl", "twitterUrl"]

/-- The fields of a value that is an object, but no array. A buffer has no fields under the names
of the schema. -/
def objectFields : JsValue → Option (List (String × JsValue))
  | .object fields => some fields
  | .buffer _ => some []
  | _ => none

/-- `validateCollection`: the first violation. A value that is missing is not checked. Known
fields are checked in the order of the schema, before unknown ones. -/
def validateCollection (joi : Joi) (data : JsValue) : Option Violation :=
  match data with
  | .undefined => none
  | _ =>
    match objectFields data with
    | none => some ⟨"value", .base⟩
    | some fields =>
      ((schema joi).findSome? fun field =>
        (field.2 (lookupField fields field.1)).map fun rule => ⟨field.1, rule⟩).or
      ((fields.find? fun field => field.1 ∉ keys).map fun field => ⟨field.1, .unknown⟩)

/-- A text of admissible length. Both bounds are admissible themselves. -/
structure Sized (low high : Nat) (value : JsValue) (text : String) : Prop where
  string : value = .string text
  present : text ≠ ""
  longer : low ≤ utf16Length text
  shorter : utf16Length text ≤ high

/-- An optional text that meets a condition. The empty text does not count as missing. -/
def Optional (met : String → Prop) (value : JsValue) : Prop :=
  value = .undefined ∨ ∃ text, value = .string text ∧ text ≠ "" ∧ met text

/-- What the validator demands of an object. It says of each field what texts it may hold. -/
structure Valid (joi : Joi) (fields : List (String × JsValue)) : Prop where
  name : ∃ text, Sized 3 50 (lookupField fields "name") text
  symbol : ∃ text, Sized 2 10 (lookupField fields "symbol") text
  description : Optional (fun text => utf16Length text ≤ 1000) (lookupField fields "description")
  category : ∃ text, lookupField fields "category" = .string text ∧ text ∈ categories
  websiteUrl : Optional (fun text => joi.isUri text = true) (lookupField fields "websiteUrl")
  discordUrl : Optional (fun text => joi.isUri text = true) (lookupField fields "discordUrl")
  twitterUrl : Optional (fun text => joi.isUri text = true) (lookupField fields "twitterUrl")
  known : ∀ field ∈ fields, field.1 ∈ keys

section Laws

variable {joi : Joi} {value : JsValue}

/-- A required string passes if it is a text of admissible length. Names and symbols are of this
kind. -/
theorem checkString_sized {low high : Nat} :
    checkString joi ⟨true, some low, some high, false⟩ value = none ↔
      ∃ text, Sized low high value text := by
  cases value with
  | string text =>
    by_cases empty : text = ""
    · subst empty
      simp only [checkString, if_true, reduceCtorEq, false_iff]
      rintro ⟨other, same, present, _⟩
      exact present (JsValue.string.inj same).symm
    · by_cases short : utf16Length text < low
      · simp only [checkString, empty, if_false, checkText, Option.filter_some, short, decide_true,
          if_true, reduceCtorEq, false_iff]
        rintro ⟨other, same, _, longer, _⟩
        obtain rfl := JsValue.string.inj same
        omega
      · by_cases long : high < utf16Length text
        · simp only [checkString, empty, if_false, checkText, Option.filter_some, short, long,
            decide_true, decide_false, if_true, reduceCtorEq, false_iff, Bool.false_eq_true]
          rintro ⟨other, same, _, _, shorter⟩
          obtain rfl := JsValue.string.inj same
          omega
        · simp only [checkString, empty, if_false, checkText, Option.filter_some, short, long,
            decide_false, Bool.false_eq_true, Bool.false_and, true_iff]
          exact ⟨text, rfl, empty, Nat.not_lt.mp short, Nat.not_lt.mp long⟩
  | undefined | null | boolean | number | array | object | buffer =>
    simp only [checkString, if_true, reduceCtorEq, false_iff]
    rintro ⟨text, same, _⟩
    cases same

/-- An optional string passes if it is missing or meets the rules of a text. The description and
the links are of this kind. -/
theorem checkString_optional (schema : StringSchema) {met : String → Prop}
    (optional : schema.required = false)
    (rules : ∀ text, checkText joi schema text = none ↔ met text) :
    checkString joi schema value = none ↔ Optional met value := by
  unfold Optional
  cases value with
  | undefined => simp [checkString, optional]
  | string text => by_cases empty : text = "" <;> simp [checkString, empty, rules]
  | null | boolean | number | array | object | buffer => simp [checkString]

/-- A text from a list of values passes, and nothing else does. A missing value is refused as
well. -/
theorem checkValid_none {values : List String} :
    checkValid values value = none ↔ ∃ text, value = .string text ∧ text ∈ values := by
  cases value with
  | string text => by_cases member : text ∈ values <;> simp [checkValid, member]
  | undefined | null | boolean | number | array | object | buffer => simp [checkValid]

/-- The validator accepts exactly what it demands, and a missing body. The middleware is not asked
for a message then. -/
theorem validateCollection_none {data : JsValue} :
    validateCollection joi data = none ↔
      data = .undefined ∨ ∃ fields, objectFields data = some fields ∧ Valid joi fields := by
  have description : ∀ text, checkText joi descriptionSchema text = none ↔ utf16Length text ≤ 1000 := by
    intro text
    by_cases long : 1000 < utf16Length text
    · simp [checkText, descriptionSchema, Option.filter_some, long]
    · simp [checkText, descriptionSchema, Option.filter_some, long, Nat.not_lt.mp long]
  have url : ∀ text, checkText joi urlSchema text = none ↔ joi.isUri text = true := by
    intro text
    cases uri : joi.isUri text <;> simp [checkText, urlSchema, uri]
  have objects : ∀ fields, ((schema joi).findSome? fun field =>
      (field.2 (lookupField fields field.1)).map fun rule => (⟨field.1, rule⟩ : Violation)).or
      ((fields.find? fun field => field.1 ∉ keys).map fun field => ⟨field.1, .unknown⟩) = none ↔
      Valid joi fields := by
    intro fields
    simp only [schema, Option.or_eq_none_iff, List.findSome?_eq_none_iff, List.forall_mem_cons,
      List.not_mem_nil, false_implies, implies_true, and_true, Option.map_eq_none_iff,
      List.find?_eq_none, decide_eq_true_iff, Decidable.not_not, nameSchema, symbolSchema,
      checkString_sized, checkValid_none, checkString_optional descriptionSchema rfl description,
      checkString_optional urlSchema rfl url]
    constructor
    · rintro ⟨⟨name, symbol, described, category, website, discord, twitter⟩, known⟩
      exact ⟨name, symbol, described, category, website, discord, twitter, known⟩
    · rintro ⟨name, symbol, described, category, website, discord, twitter, known⟩
      exact ⟨⟨name, symbol, described, category, website, discord, twitter⟩, known⟩
  cases data with
  | undefined => simp [validateCollection]
  | object fields => simpa [validateCollection, objectFields] using objects fields
  | buffer content => simpa [validateCollection, objectFields] using objects []
  | null | boolean | number | string | array => simp [validateCollection, objectFields]

end Laws

end CollectionValidator

/-- Nothing is left of white space, and something is of any other text. Such a name passes the
validator and fails in the schema. -/
theorem trim_eq_empty {text : String} : trim text = "" ↔ ∀ c ∈ text.toList, isWhitespace c = true := by
  rw [trim, ← String.toList_eq_nil_iff, String.toList_ofList, List.rdropWhile_eq_nil_iff]
  constructor
  · intro ends c member
    rw [← List.takeWhile_append_dropWhile (p := isWhitespace) (l := text.toList)] at member
    rcases List.mem_append.mp member with start | rest
    · exact List.mem_takeWhile_imp start
    · exact ends c rest
  · intro blank c member
    exact blank c ((List.dropWhile_sublist isWhitespace).subset member)

end OpenBeach
