import Mathlib.Data.List.Forall2
import Mathlib.Data.List.Nodup
import MessageCatalog.CatalogJson

/-!
# The forms of a catalog in JSON

A catalog is written in one way but has many forms. The members of an object come
in any order and among members of other names; an absent optional field is left out
or null; an empty list and the default version are written or left out. Every form
is read as the catalog that it is a form of, and so is what is written, which is one
of them.
-/

namespace MessageCatalog

namespace Json

/-! ## Records -/

/-- The members that a record has for its fields; a field without a value has none. -/
def present (fields : List (String × Option Json)) : List (String × Json) :=
  fields.filterMap fun field => field.2.map (field.1, ·)

/-- An object with the given fields. Its members come in any order, and others of
unknown names among them. -/
inductive IsRecord (fields : List (String × Option Json)) : Json → Prop
  /-- The fields that are present and the others make up the object. -/
  | of {members others : List (String × Json)} (same : members.Perm (present fields ++ others))
    (unknown : ∀ member ∈ others, member.1 ∉ fields.map Prod.fst) : IsRecord fields (record members)

/-- The members of a record are some of its fields. -/
theorem names_present_sublist (fields : List (String × Option Json)) :
    ((present fields).map Prod.fst).Sublist (fields.map Prod.fst) := by
  induction fields with
  | nil => exact .slnil
  | cons field rest ih =>
    obtain ⟨name, value⟩ := field
    cases value with
    | none => exact ih.cons name
    | some value => exact ih.cons_cons name

section Members

variable {fields : List (String × Option Json)} {members others : List (String × Json)}

/-- A member with the name of a field has the value of that field. -/
theorem eq_some_of_member (distinct : (fields.map Prod.fst).Nodup)
    (same : members.Perm (present fields ++ others))
    (unknown : ∀ member ∈ others, member.1 ∉ fields.map Prod.fst)
    {field : String × Option Json} (known : field ∈ fields) {member : String × Json}
    (among : member ∈ members) (name : member.1 = field.1) : field.2 = some member.2 := by
  rcases List.mem_append.mp (same.mem_iff.mp among) with own | other
  · obtain ⟨field', known', there⟩ := List.mem_filterMap.mp own
    obtain ⟨found, value, rfl⟩ := Option.map_eq_some_iff.mp there
    rw [← List.inj_on_of_nodup_map distinct known' known name, value]
  · exact absurd (name ▸ List.mem_map_of_mem known) (unknown member other)

/-- No field has two members. -/
theorem countP_member_le_one (distinct : (fields.map Prod.fst).Nodup)
    (same : members.Perm (present fields ++ others))
    (unknown : ∀ member ∈ others, member.1 ∉ fields.map Prod.fst)
    {name : String} (known : name ∈ fields.map Prod.fst) :
    members.countP (·.1 == name) ≤ 1 := by
  have none : others.countP (·.1 == name) = 0 :=
    List.countP_eq_zero.mpr fun member other own =>
      unknown member other (by rw [eq_of_beq own]; exact known)
  have once : (present fields).countP (·.1 == name) ≤ 1 := by
    have count := List.nodup_iff_count_le_one.mp (distinct.sublist (names_present_sublist fields))
      name
    rwa [List.count, List.countP_map] at count
  rw [same.countP_eq, List.countP_append, none]
  exact once

end Members

/-- A record is read as the fields that it has. -/
theorem fields?_of_isRecord {fields : List (String × Option Json)} {value : Json}
    (h : value.IsRecord fields) (names : List String) (own : fields.map Prod.fst = names)
    (distinct : names.Nodup) :
    ∃ field?, value.fields? names = some field? ∧ ∀ field ∈ fields, field? field.1 = field.2 := by
  subst own
  obtain @⟨members, others, same, unknown⟩ := h
  have named (name : String) :
      (fun member : JsonString × Json => member.1 == some name) ∘
        (fun member : String × Json => ((some member.1 : JsonString), member.2)) =
      fun member => member.1 == name := by
    funext member
    simp
  have sound : ((members.map fun member => ((some member.1 : JsonString), member.2)).all
        (·.1.isSome) &&
      (fields.map Prod.fst).all fun name =>
        (members.map fun member => ((some member.1 : JsonString), member.2)).countP
          (·.1 == some name) ≤ 1) = true := by
    rw [Bool.and_eq_true, List.all_eq_true, List.all_eq_true]
    refine ⟨fun member among => ?_, fun name known => ?_⟩
    · obtain ⟨_, _, rfl⟩ := List.mem_map.mp among
      rfl
    · rw [List.countP_map, named]
      exact decide_eq_true (countP_member_le_one distinct same unknown known)
  refine ⟨_, if_pos sound, fun field known => ?_⟩
  rw [List.find?_map, named, Option.map_map]
  cases found : members.find? (·.1 == field.1) with
  | some member =>
    have name : member.1 = field.1 := by simpa using List.find?_some found
    exact (eq_some_of_member distinct same unknown known (List.mem_of_find?_eq_some found)
      name).symm
  | none =>
    cases own : field.2 with
    | none => rfl
    | some content =>
      have present : (field.1, content) ∈ present fields :=
        List.mem_filterMap.mpr ⟨field, known, by rw [own]; rfl⟩
      have among := same.mem_iff.mpr (List.mem_append_left others present)
      exact absurd (beq_self_eq_true field.1) (List.find?_eq_none.mp found _ among)

/-- A field that is left out without a value is one of those that are present. -/
theorem optional_append_present {α : Type} (name : String) (encode : α → Json)
    (content : Option α) (fields : List (String × Option Json)) :
    optional name encode content ++ present fields =
      present ((name, content.map encode) :: fields) := by
  cases content <;> rfl

/-- What is written of a record is a record of its fields. -/
theorem isRecord_record (fields : List (String × Option Json)) :
    (record (present fields)).IsRecord fields :=
  .of (by rw [List.append_nil]) (by simp)

/-! ## Fields -/

variable {α : Type}

/-- A value that is written in one way only. -/
def Exactly (encode : α → Json) (content : α) (value : Json) : Prop := value = encode content

/-- A list of values, each in a form of its own. -/
inductive ListForm (Form : α → Json → Prop) (list : List α) : Json → Prop
  /-- The elements are forms of those of the list. -/
  | of {values : List Json} (elements : List.Forall₂ Form list values) :
    ListForm Form list (.array values)

/-- The forms of an optional field. -/
inductive OptionalForm (Form : α → Json → Prop) : Option α → Option Json → Prop
  /-- A value is written in one of its forms. -/
  | value {content : α} {value : Json} (form : Form content value) :
    OptionalForm Form (some content) (some value)
  /-- An absent one is left out. -/
  | missing : OptionalForm Form none none
  /-- Or it is null. -/
  | null : OptionalForm Form none (some .null)

/-- The forms of a field that has a default. -/
inductive DefaultForm (default : α) (Form : α → Json → Prop) : α → Option Json → Prop
  /-- A value is written in one of its forms. -/
  | value {content : α} {value : Json} (form : Form content value) :
    DefaultForm default Form content (some value)
  /-- The default may be left out. -/
  | missing : DefaultForm default Form default none

/-- Each form of a value is read as that value. -/
def Reads (decode : Json → Option α) (Form : α → Json → Prop) : Prop :=
  ∀ content value, Form content value → decode value = some content

/-- Texts are read. -/
theorem reads_text : Reads asText? (Exactly text) := by
  rintro content value rfl
  rfl

variable {Form : α → Json → Prop} {decode : Json → Option α}

/-- Lists are read if their elements are. -/
theorem reads_list (reads : Reads decode Form) : Reads (asList? decode) (ListForm Form) := by
  rintro list value ⟨elements⟩
  rw [asList?]
  induction elements with
  | nil => rfl
  | cons first rest ih => rw [List.mapM_cons, reads _ _ first, ih]; rfl

/-- An optional field is read if its values are, unless one is null. -/
theorem optionalField?_of_form (reads : Reads decode Form) (nothing : decode .null = none)
    {content : Option α} {field : Option Json} (form : OptionalForm Form content field) :
    optionalField? decode field = some content := by
  cases form with
  | missing | null => rfl
  | @value content value form =>
    have read := reads content value form
    have solid : value ≠ .null := fun null => by simp [null, nothing] at read
    unfold optionalField?
    split <;> simp_all

/-- A field with a default is read if its values are. -/
theorem defaultField?_of_form (reads : Reads decode Form) {default content : α}
    {field : Option Json} (form : DefaultForm default Form content field) :
    defaultField? default decode field = some content := by
  cases form with
  | missing => rfl
  | value form => exact reads _ _ form

/-- What is written of an optional field is one of its forms. -/
theorem optionalForm_map (encode : α → Json) (content : Option α) :
    OptionalForm (Exactly encode) content (content.map encode) := by
  cases content with
  | none => exact .missing
  | some content => exact .value rfl

/-- What is written of a list is one of its forms. -/
theorem listForm_map {encode : α → Json} (written : ∀ content, Form content (encode content))
    (list : List α) : ListForm Form list (.array (list.map encode)) :=
  .of (List.forall₂_map_right_iff.mpr (List.forall₂_same.mpr fun content _ => written content))

end Json

/-! ## Parts of a catalog -/

/-- Line references are read back. -/
theorem LineNumber.reads : Json.Reads ofJson? (Json.Exactly toJson) := by
  rintro line _ rfl
  cases line with
  | absolute line =>
    have bound : line.toNat < 2 ^ 32 := line.toNat_lt
    simp only [toJson, Json.record, Json.natural, List.map_cons, List.map_nil, ofJson?,
      Json.asInteger?]
    rw [if_pos ⟨by omega, by omega⟩]
    simp
  | relative delta =>
    have least : -2 ^ 31 ≤ delta.toInt := delta.le_toInt
    have most : delta.toInt < 2 ^ 31 := delta.toInt_lt
    simp only [toJson, Json.record, List.map_cons, List.map_nil, ofJson?, Json.asInteger?]
    rw [if_pos ⟨by omega, by omega⟩]
    simp

/-- Translations are read back. -/
theorem Translation.reads : Json.Reads ofJson? (Json.Exactly toJson) := by
  rintro translation _ rfl
  cases translation with
  | singular content => rfl
  | plural forms =>
    have written := Json.listForm_map (fun content => show Json.Exactly .text content _ from rfl)
      forms
    exact congrArg (Option.map plural) (Json.reads_list Json.reads_text _ _ written)

/-- Statuses are read back. -/
theorem Status.reads : Json.Reads ofJson? (Json.Exactly toJson) := by
  rintro status _ rfl
  cases status <;> decide

namespace Location

/-- The forms of a location. -/
inductive Form (location : Location) (value : Json) : Prop
  /-- Both fields are optional. -/
  | of {filename line : Option Json}
    (file : Json.OptionalForm (Json.Exactly .text) location.filename filename)
    (reference : Json.OptionalForm (Json.Exactly LineNumber.toJson) location.line line)
    (fields : value.IsRecord [("filename", filename), ("line", line)])

/-- Locations are read from each of their forms. -/
theorem reads : Json.Reads ofJson? Form := by
  rintro location value ⟨file, reference, fields⟩
  obtain ⟨field?, read, known⟩ :=
    Json.fields?_of_isRecord fields ["filename", "line"] rfl (by decide)
  simp only [List.forall_mem_cons] at known
  rw [ofJson?, read]
  simp only [Option.bind_eq_bind, Option.bind_some, known,
    Json.optionalField?_of_form Json.reads_text rfl file,
    Json.optionalField?_of_form LineNumber.reads rfl reference]

/-- What is written of a location is one of its forms. -/
theorem form_toJson (location : Location) : location.Form location.toJson := by
  refine .of (Json.optionalForm_map _ _) (Json.optionalForm_map _ _) ?_
  rw [toJson, ← List.append_nil (Json.optional "line" _ _)]
  have none : [] = Json.present [] := rfl
  rw [none, Json.optional_append_present, Json.optional_append_present]
  exact Json.isRecord_record _

end Location

namespace Message

/-- The forms of a message. -/
inductive Form (message : Message) (value : Json) : Prop
  /-- Locations may be left out if there are none; comments and the historical attribute
  are optional. -/
  | of {locations comment extraComment translatorComment utf8 : Option Json}
    (places : Json.DefaultForm [] (Json.ListForm Location.Form) message.locations locations)
    (hint : Json.OptionalForm (Json.Exactly .text) message.comment comment)
    (extra : Json.OptionalForm (Json.Exactly .text) message.extraComment extraComment)
    (remark : Json.OptionalForm (Json.Exactly .text) message.translatorComment translatorComment)
    (historical : Json.OptionalForm (Json.Exactly .text) message.utf8 utf8)
    (fields : value.IsRecord [("locations", locations), ("source", some (.text message.source)),
      ("comment", comment), ("extra_comment", extraComment),
      ("translator_comment", translatorComment), ("utf8", utf8),
      ("translation", some message.translation.toJson), ("status", some message.status.toJson)])

/-- Messages are read from each of their forms. -/
theorem reads : Json.Reads ofJson? Form := by
  rintro message value ⟨places, hint, extra, remark, historical, fields⟩
  obtain ⟨field?, read, known⟩ := Json.fields?_of_isRecord fields fieldNames rfl (by decide)
  simp only [List.forall_mem_cons] at known
  rw [ofJson?, read]
  simp only [Option.bind_eq_bind, Option.bind_some, known,
    Json.defaultField?_of_form (Json.reads_list Location.reads) places,
    Json.reads_text _ _ rfl, Json.optionalField?_of_form Json.reads_text rfl hint,
    Json.optionalField?_of_form Json.reads_text rfl extra,
    Json.optionalField?_of_form Json.reads_text rfl remark,
    Json.optionalField?_of_form Json.reads_text rfl historical,
    Translation.reads _ _ rfl, Status.reads _ _ rfl]

/-- What is written of a message is one of its forms. -/
theorem form_toJson (message : Message) : message.Form message.toJson := by
  refine .of (.value (Json.listForm_map Location.form_toJson _))
    (Json.optionalForm_map _ _) (Json.optionalForm_map _ _)
    (Json.optionalForm_map _ _) (Json.optionalForm_map _ _) ?_
  have last : [("translation", message.translation.toJson), ("status", message.status.toJson)] =
      Json.present [("translation", some message.translation.toJson),
        ("status", some message.status.toJson)] := rfl
  simp only [toJson, List.append_assoc, last, Json.optional_append_present]
  exact Json.isRecord_record _

end Message

namespace Context

/-- The forms of a context. -/
inductive Form (context : Context) (value : Json) : Prop
  /-- Messages may be left out if there are none. -/
  | of {messages : Option Json}
    (entries : Json.DefaultForm [] (Json.ListForm Message.Form) context.messages messages)
    (fields : value.IsRecord [("name", some (.text context.name)), ("messages", messages)])

/-- Contexts are read from each of their forms. -/
theorem reads : Json.Reads ofJson? Form := by
  rintro context value ⟨entries, fields⟩
  obtain ⟨field?, read, known⟩ :=
    Json.fields?_of_isRecord fields ["name", "messages"] rfl (by decide)
  simp only [List.forall_mem_cons] at known
  rw [ofJson?, read]
  simp only [Option.bind_eq_bind, Option.bind_some, known, Json.reads_text _ _ rfl,
    Json.defaultField?_of_form (Json.reads_list Message.reads) entries]

/-- What is written of a context is one of its forms. -/
theorem form_toJson (context : Context) : context.Form context.toJson :=
  .of (.value (Json.listForm_map Message.form_toJson _)) (Json.isRecord_record _)

end Context

namespace Catalog

/-- The forms of a catalog. -/
inductive Form (catalog : Catalog) (value : Json) : Prop
  /-- The default version may be left out, and contexts if there are none; languages are
  optional. -/
  | of {version language sourceLanguage contexts : Option Json}
    (format : Json.DefaultForm defaultVersion (Json.Exactly .text) catalog.version version)
    (target : Json.OptionalForm (Json.Exactly .text) catalog.language language)
    (origin : Json.OptionalForm (Json.Exactly .text) catalog.sourceLanguage sourceLanguage)
    (parts : Json.DefaultForm [] (Json.ListForm Context.Form) catalog.contexts contexts)
    (fields : value.IsRecord [("version", version), ("language", language),
      ("source_language", sourceLanguage), ("contexts", contexts)])

/-- Catalogs are read from each of their forms. -/
theorem reads : Json.Reads ofJson? Form := by
  rintro catalog value ⟨format, target, origin, parts, fields⟩
  obtain ⟨field?, read, known⟩ := Json.fields?_of_isRecord fields
    ["version", "language", "source_language", "contexts"] rfl (by decide)
  simp only [List.forall_mem_cons] at known
  rw [ofJson?, read]
  simp only [Option.bind_eq_bind, Option.bind_some, known,
    Json.defaultField?_of_form Json.reads_text format,
    Json.optionalField?_of_form Json.reads_text rfl target,
    Json.optionalField?_of_form Json.reads_text rfl origin,
    Json.defaultField?_of_form (Json.reads_list Context.reads) parts]

/-- What is written of a catalog is one of its forms. -/
theorem form_toJson (catalog : Catalog) : catalog.Form catalog.toJson := by
  refine .of (.value rfl) (Json.optionalForm_map _ _)
    (Json.optionalForm_map _ _)
    (.value (Json.listForm_map Context.form_toJson _)) ?_
  have last : [("contexts", Json.array (catalog.contexts.map Context.toJson))] =
      Json.present [("contexts", some (Json.array (catalog.contexts.map Context.toJson)))] := rfl
  simp only [toJson, List.append_assoc, last, Json.optional_append_present]
  exact Json.isRecord_record _

/-- A catalog is read back from what is written of it, and from all its other forms: with
members of unknown names in any object, with null for what is absent, and without empty
lists and the default version. So no two catalogs have a form in common. -/
theorem read_from_every_form (catalog : Catalog) :
    ofJson? catalog.toJson = some catalog ∧
      ∀ value, catalog.Form value → ofJson? value = some catalog ∧
        ∀ other : Catalog, other.Form value → other = catalog := by
  refine ⟨reads _ _ catalog.form_toJson, fun value form => ⟨reads _ _ form, fun other also => ?_⟩⟩
  exact Option.some.inj ((reads _ _ also).symm.trans (reads _ _ form))

/-- A message with an empty comment. -/
def commented : Message :=
  ⟨[⟨none, some (.relative (-3))⟩], "s", some "", none, none, none, .plural ["a", ""], .obsolete⟩

/-- A form of it that tells its source text first, with nulls and a member of an unknown name. -/
def commentedForm : Json :=
  .record [("source", .text "s"),
    ("locations", .array [.record [("line", .record [("relative", .integer (-3))]),
      ("column", .integer 7)]]),
    ("comment", .text ""), ("utf8", .null),
    ("translation", .record [("plural", .array [.text "a", .text ""])]),
    ("status", .text "obsolete")]

/-- A catalog is read from a form without its version, with nulls, and with members of unknown
names in every object. -/
theorem commented_read_from_form :
    ofJson? (.record [("language", .null), ("source_language", .text "en"),
      ("contexts", .array [
        .record [("name", .text "c"), ("messages", .array [commentedForm]), ("hidden", .null)],
        .record [("hidden", .bool true), ("name", .text "d")]]),
      ("generator", .null)]) =
      some ⟨"2.0", none, some "en", [⟨"c", [commented]⟩, ⟨"d", []⟩]⟩ := by
  have location : Location.Form ⟨none, some (.relative (-3))⟩
      (.record [("line", .record [("relative", .integer (-3))]), ("column", .integer 7)]) :=
    .of .missing (.value rfl) (.of (.refl _) (by simp))
  have message : commented.Form commentedForm :=
    .of (.value (.of (.cons location .nil))) (.value rfl) .missing .missing .null
      (.of (.swap _ _ _) (by simp))
  have first : Context.Form ⟨"c", [commented]⟩
      (.record [("name", .text "c"), ("messages", .array [commentedForm]), ("hidden", .null)]) :=
    .of (.value (.of (.cons message .nil))) (.of (.refl _) (by simp))
  have second : Context.Form ⟨"d", []⟩ (.record [("hidden", .bool true), ("name", .text "d")]) :=
    .of .missing (.of (.swap _ _ _) (by simp))
  refine ((read_from_every_form _).2 _ ?_).1
  exact .of .missing .null (.value rfl) (.value (.of (.cons first (.cons second .nil))))
    (.of (.refl _) (by simp))

end Catalog

end MessageCatalog
