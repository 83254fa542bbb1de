import MessageCatalog.Proofs.LineNumberText
import MessageCatalog.Proofs.TagReading
import MessageCatalog.Proofs.WrittenTags

/-!
# Written start tags are read

The elements that carry attributes are written with the attributes of some
fields, absent ones left out. Their keys are distinct names, so they are read
back, and reading starts the element with the values of these fields.
-/

namespace MessageCatalog

namespace Written

/-- The attributes of a location. -/
def locationAttributes (location : Location) : List (String × String) :=
  (location.filename.map ("filename", ·)).toList ++
    (location.line.map fun line => ("line", line.text)).toList

/-- The attribute of a translation. -/
def translationAttributes (status : Status) : List (String × String) :=
  (status.mark?.map ("type", ·)).toList

/-- The attributes of a message. -/
def messageAttributes (message : Message) : List (String × String) :=
  (if message.isPlural then [("numerus", "yes")] else []) ++
    (message.utf8.map ("utf8", ·)).toList

/-- The attributes of a catalog. -/
def catalogAttributes (catalog : Catalog) : List (String × String) :=
  [("version", catalog.version)] ++ (catalog.language.map ("language", ·)).toList ++
    (catalog.sourceLanguage.map ("sourcelanguage", ·)).toList

/-- Whether attributes can be read back: their keys are names, none of them twice. -/
def Readable (attributes : List (String × String)) : Prop :=
  (∀ entry ∈ attributes, IsName entry.1.toList) ∧ (attributes.map Prod.fst).Nodup

/-- Whether attributes can be read back is a matter of their keys. -/
theorem readable_of_keys (keys : List String) {attributes : List (String × String)}
    (names : ∀ key ∈ keys, IsName key.toList) (distinct : keys.Nodup)
    (same : (attributes.map Prod.fst).Sublist keys) : Readable attributes :=
  ⟨fun _ member => names _ (same.subset (List.mem_map_of_mem member)), same.nodup distinct⟩

/-- The attributes of a location can be read back. -/
theorem readable_locationAttributes (location : Location) :
    Readable (locationAttributes location) := by
  refine readable_of_keys ["filename", "line"] (by decide) (by decide) ?_
  unfold locationAttributes
  cases location.filename <;> cases location.line <;> simp

/-- The attribute of a translation can be read back. -/
theorem readable_translationAttributes (status : Status) :
    Readable (translationAttributes status) := by
  refine readable_of_keys ["type"] (by decide) (by decide) ?_
  unfold translationAttributes
  cases status.mark? <;> simp

/-- The attributes of a message can be read back. -/
theorem readable_messageAttributes (message : Message) :
    Readable (messageAttributes message) := by
  refine readable_of_keys ["numerus", "utf8"] (by decide) (by decide) ?_
  unfold messageAttributes
  cases message.isPlural <;> cases message.utf8 <;> simp

/-- The attributes of a catalog can be read back. -/
theorem readable_catalogAttributes (catalog : Catalog) :
    Readable (catalogAttributes catalog) := by
  refine readable_of_keys ["version", "language", "sourcelanguage"] (by decide)
    (by decide) ?_
  unfold catalogAttributes
  cases catalog.language <;> cases catalog.sourceLanguage <;> simp

end Written

namespace Reader

/-- Readable attributes are read back. -/
theorem Step.attributes_written {attributes : List (String × String)}
    (readable : Written.Readable attributes) (name : List Char) :
    Step.attributes ⟨name, Written.attributeTexts attributes⟩ = pure attributes := by
  rw [Step.attributes, Tag.attributeList_written readable.1 readable.2]
  rfl

namespace Place

/-- A written location starts as what it is. -/
theorem enter_location (outer : OpenMessage) (location : Location) :
    (message outer).enter ⟨"location".toList,
      Written.attributeTexts (Written.locationAttributes location)⟩ =
        pure (Place.location location outer) := by
  rw [enter]
  simp only [String.ofList_toList]
  rw [startLocation, Step.attributes_written (Written.readable_locationAttributes location),
    pure_bind]
  obtain ⟨filename, line⟩ := location
  cases filename <;> cases line <;>
    simp [Written.locationAttributes, takeLocationAttribute, LineNumber.parse?_text]

/-- A written translation starts with its status. -/
theorem enter_translation (outer : OpenMessage) (status : Status) :
    (message outer).enter ⟨"translation".toList,
      Written.attributeTexts (Written.translationAttributes status)⟩ =
        if outer.plural then pure (forms ⟨outer, status, #[]⟩)
        else pure (text (.part (.translation status) outer) "") := by
  rw [enter]
  simp only [String.ofList_toList]
  rw [startTranslation, Step.attributes_written (Written.readable_translationAttributes status),
    pure_bind]
  cases status <;> rfl

/-- A written message starts with its kind and its historical attribute. -/
theorem enter_messageElement (outer : OpenContext) (item : Message) :
    (context outer).enter ⟨"message".toList,
      Written.attributeTexts (Written.messageAttributes item)⟩ =
        pure (message ⟨outer, item.isPlural, item.utf8, #[], none, none, none, none, none⟩) := by
  rw [enter]
  simp only [String.ofList_toList]
  rw [OpenMessage.start, Step.attributes_written (Written.readable_messageAttributes item),
    pure_bind, Written.messageAttributes]
  cases item.isPlural <;> cases item.utf8 <;> simp [OpenMessage.takeAttribute]

/-- A written catalog starts with its header. -/
theorem enter_rootElement (catalog : Catalog) :
    (document none).enter ⟨"TS".toList,
      Written.attributeTexts (Written.catalogAttributes catalog)⟩ =
        pure (root ⟨catalog.version, catalog.language, catalog.sourceLanguage, #[]⟩) := by
  rw [enter]
  simp only [String.ofList_toList]
  rw [OpenCatalog.start, Step.attributes_written (Written.readable_catalogAttributes catalog),
    pure_bind, Written.catalogAttributes]
  cases catalog.language <;> cases catalog.sourceLanguage <;> simp [OpenCatalog.takeAttribute]

end Place

end Reader

end MessageCatalog
