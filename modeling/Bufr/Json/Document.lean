import Bufr.Bulletin
import Bufr.Json

/-!
Bulletins and their parts as JSON. A choice is an object whose only member names it, or a string if it
holds nothing.
-/

namespace Bufr

open Json (ofNat ofOctets ofOption)

def Descriptor.toJson (d : Descriptor) : Json :=
  .object [("f", ofNat d.f.toNat), ("x", ofNat d.x.toNat), ("y", ofNat d.y.toNat)]

def Value.toJson : Value → Json
  | missing => .string "Missing"
  | decimal mantissa exponent =>
    .object [("Decimal", .array [.number mantissa.toInt, .number exponent.toInt])]
  | integer number => .object [("Integer", .number number.toInt)]
  | text content => .object [("String", .string content)]

mutual

def Variable.toJson : Variable → Json
  | ⟨code, value, attributes, associated⟩ =>
    .object [("code", code.toJson), ("value", value.toJson),
      ("attributes", .array (Variable.listToJson attributes)),
      ("associated", ofOption ofNat associated)]

def Variable.listToJson : List Variable → List Json
  | [] => []
  | v :: rest => v.toJson :: Variable.listToJson rest

end

def Subset.toJson (subset : Subset) : Json :=
  .object [("variables", .array (subset.vars.toList.map Variable.toJson)),
    ("new_references", .array (subset.references.toList.map fun (code, reference) =>
      .array [code.toJson, .number reference]))]

def Chain.toJson (chain : Chain) : Json :=
  .object [("nodes", .array (chain.map Descriptor.toJson))]

def Opcode.toJson : Opcode → Json
  | element code => .object [("Element", code.toJson)]
  | replication code span =>
    .object [("Replication", .object [("descriptor", code.toJson), ("span", ofNat span)])]
  | operator code => .object [("Operator", code.toJson)]

def Template.toJson (template : Template) : Json :=
  .object [("ops", .array (template.ops.toList.map Opcode.toJson))]

/-- The members of an identity up to the flags that stand among them, and those behind. -/
def Identity.members (identity : Identity) : List (String × Json) × List (String × Json) :=
  ([("master_table_number", ofNat identity.masterTable.toNat),
    ("centre", ofNat identity.centre.toNat),
    ("sub_centre", ofNat identity.subCentre.toNat),
    ("update_sequence_number", ofNat identity.update.toNat)],
   [("data_category", ofNat identity.category.toNat),
    ("international_data_sub_category", ofNat identity.internationalSubCategory.toNat),
    ("local_data_sub_category", ofNat identity.localSubCategory.toNat),
    ("master_table_version", ofNat identity.masterVersion.toNat),
    ("local_tables_version", ofNat identity.localVersion.toNat),
    ("typical_year", ofNat identity.year.toNat),
    ("typical_month", ofNat identity.month.toNat),
    ("typical_day", ofNat identity.day.toNat),
    ("typical_hour", ofNat identity.hour.toNat),
    ("typical_minute", ofNat identity.minute.toNat),
    ("typical_second", ofNat identity.second.toNat)])

def Bulletin.toJson (bulletin : Bulletin) : Json :=
  let (issuer, content) := bulletin.identity.members
  .object ([("edition", ofNat bulletin.edition.toNat)] ++ issuer ++ content ++
    [("optional_section", ofOption ofOctets bulletin.optional),
     ("is_observed_data", .bool bulletin.isObserved),
     ("descriptors", Chain.toJson bulletin.descriptors),
     ("subsets", .array (bulletin.subsets.map Subset.toJson))])

def Indicator.toJson (indicator : Indicator) : Json :=
  .object [("total_length", ofNat indicator.totalLength),
    ("edition_number", ofNat indicator.edition.toNat)]

def Identification.toJson (identification : Identification) : Json :=
  let (issuer, content) := identification.identity.members
  .object ([("section_length", ofNat identification.sectionLength)] ++ issuer ++
    [("flags", .object [("has_optional_section", .bool identification.hasOptional)])] ++ content ++
    [("local_use", ofOctets identification.localUse)])

def OptionalSection.toJson (section2 : OptionalSection) : Json :=
  .object [("section_length", ofNat section2.sectionLength),
    ("optional", ofOctets section2.content)]

def Description.toJson (description : Description) : Json :=
  .object [("section_length", ofNat description.sectionLength),
    ("number_of_subsets", ofNat description.subsetCount.toNat),
    ("flags", .object [("is_observed_data", .bool description.isObserved),
      ("is_compressed", .bool description.isCompressed)]),
    ("descriptors", .array (description.descriptors.map Descriptor.toJson))]

def Header.toJson (header : Header) : Json :=
  .object [("indicator_section", header.indicator.toJson),
    ("identification_section", header.identification.toJson),
    ("optional_section", ofOption OptionalSection.toJson header.optional),
    ("data_description_section", header.description.toJson)]

end Bufr
