import Mathlib
import MessageCatalog.Proofs.TranslatorSetRuns

/-!
# Codes that match and their plural rules

Codes are compared by their characters with letter case and separators made alike. A
language tag is split first, and each of its subtags meets the rule of the place where it
stands. No rule tells a subtag from the same one in small letters: not the tests of its
form, not the slots of an identifier or the parts of an extension, not the comparisons
that find a repeated variant or extension. So the whole grammar reads codes that match
alike, faults included, and the plural rule of a code is that of every translator found
by it.
-/

namespace MessageCatalog

/-! ## Letters in small -/

/-- A capital letter has its small one behind it. -/
theorem toNat_toLower (c : Char) :
    c.toLower.toNat = if 65 ≤ c.toNat ∧ c.toNat ≤ 90 then c.toNat + 32 else c.toNat := by
  unfold Char.toLower
  split
  next capital =>
    have bounds : 65 ≤ c.toNat ∧ c.toNat ≤ 90 := capital
    have least : c.val.toNat ≤ 90 := bounds.2
    rw [if_pos bounds]
    change (c.val + 32).toNat = c.val.toNat + 32
    rw [UInt32.toNat_add]
    change (c.val.toNat + 32) % 2 ^ 32 = c.val.toNat + 32
    omega
  next other => exact (if_neg other).symm

/-- Only a sign itself becomes that sign when letters are made small. -/
theorem toLower_eq_iff {c sign : Char} (unlettered : sign.isAlpha = false) :
    c.toLower = sign ↔ c = sign := by
  have neither : (decide (65 ≤ sign.val ∧ sign.val ≤ 90) ||
      decide (97 ≤ sign.val) && decide (sign.val ≤ 122)) = false := unlettered
  have outside :
      ¬(65 ≤ sign.toNat ∧ sign.toNat ≤ 90) ∧ ¬(97 ≤ sign.toNat ∧ sign.toNat ≤ 122) := by
    simpa [UInt32.le_iff_toNat_le] using neither
  rw [← Char.toNat_inj, ← Char.toNat_inj, toNat_toLower]
  split <;> omega

/-- Making letters small makes no digits and takes none away. -/
theorem isDigit_toLower (c : Char) : c.toLower.isDigit = c.isDigit := by
  have digit (c : Char) : c.isDigit = decide (48 ≤ c.toNat ∧ c.toNat ≤ 57) := by
    simp [Char.isDigit, UInt32.le_iff_toNat_le]
  rw [digit, digit, toNat_toLower, decide_eq_decide]
  split <;> omega

/-- A small letter takes as many bytes as its capital. -/
theorem utf8Size_toLower (c : Char) : c.toLower.utf8Size = c.utf8Size := by
  have oneByte {c : Char} (low : c.toNat < 128) : c.utf8Size = 1 :=
    Char.utf8Size_eq_one_iff.mpr (UInt32.le_iff_toNat_le.mpr (Nat.le_of_lt_succ low))
  by_cases capital : 65 ≤ c.toNat ∧ c.toNat ≤ 90
  · have small := toNat_toLower c
    rw [if_pos capital] at small
    rw [oneByte (by omega), oneByte (by omega)]
  · rw [Char.toLower_eq_of_not_isUpper]
    simpa [Char.isUpper, UInt32.le_iff_toNat_le] using capital

namespace LanguageTag

/-! ## What the rules for one subtag see -/

section Subtag

variable (subtag : List Char)

@[simp] theorem lowered_lowered : lowered (lowered subtag) = lowered subtag := by
  simp [lowered]

@[simp] theorem raised_lowered : raised (lowered subtag) = raised subtag := by
  simp [raised, lowered]

/-- The bytes of a subtag are as many in small letters. -/
@[simp] theorem utf8Length_lowered : Utf8.length (lowered subtag) = Utf8.length subtag := by
  unfold Utf8.length lowered
  rw [List.foldl_map]
  simp only [utf8Size_toLower]

/-- A test that a small letter passes exactly if its capital does is passed by the
characters of a subtag exactly if the small ones pass it. -/
theorem all_lowered {test : Char → Bool} (blind : ∀ c, test c.toLower = test c) :
    (lowered subtag).all test = subtag.all test := by
  rw [lowered, List.all_map]
  exact congrArg subtag.all (funext blind)

@[simp] theorem isAlpha_lowered (least most : Nat) :
    isAlpha least most (lowered subtag) = isAlpha least most subtag := by
  unfold isAlpha
  rw [all_lowered subtag Char.isAlpha_toLower_eq_isAlpha, lowered, List.length_map]

@[simp] theorem isAlphanum_lowered (least most : Nat) :
    isAlphanum least most (lowered subtag) = isAlphanum least most subtag := by
  have blind (c : Char) : c.toLower.isAlphanum = c.isAlphanum := by
    simp [Char.isAlphanum, isDigit_toLower]
  unfold isAlphanum
  rw [all_lowered subtag blind, lowered, List.length_map]

@[simp] theorem isLanguage_lowered : isLanguage (lowered subtag) = isLanguage subtag :=
  isAlpha_lowered subtag 2 3

@[simp] theorem isScript_lowered : isScript (lowered subtag) = isScript subtag :=
  isAlpha_lowered subtag 4 4

@[simp] theorem isRegion_lowered : isRegion (lowered subtag) = isRegion subtag := by
  unfold isRegion
  rw [isAlpha_lowered, all_lowered subtag isDigit_toLower, lowered, List.length_map]

@[simp] theorem isVariant_lowered : isVariant (lowered subtag) = isVariant subtag := by
  have leading : (lowered subtag).head?.map Char.isDigit = subtag.head?.map Char.isDigit := by
    rw [lowered, List.head?_map, Option.map_map]
    exact congrArg (subtag.head?.map ·) (funext isDigit_toLower)
  unfold isVariant
  rw [isAlphanum_lowered, isAlphanum_lowered, leading]

@[simp] theorem isValue_lowered : isValue (lowered subtag) = isValue subtag :=
  isAlphanum_lowered subtag 3 8

@[simp] theorem isKey_lowered : isKey (lowered subtag) = isKey subtag := by
  match subtag with
  | [] | [_] | _ :: _ :: _ :: _ => rfl
  | [_, _] => simp [isKey, lowered, Char.isAlphanum, isDigit_toLower]

@[simp] theorem isField_lowered : isField (lowered subtag) = isField subtag := by
  match subtag with
  | [] | [_] | _ :: _ :: _ :: _ => rfl
  | [_, _] => simp [isField, lowered, isDigit_toLower]

end Subtag

/-! ## What the grammar sees of a tag -/

/-- A subtag in small letters fills the same slot of an identifier, or is refused as a
variant that is there already. -/
theorem Slot.take?_lowered (slot : Slot) (variants : List (List Char)) (subtag : List Char) :
    slot.take? variants (lowered subtag) = slot.take? variants subtag := by
  simp only [Slot.take?, isScript_lowered, isRegion_lowered, isVariant_lowered, lowered_lowered]

/-- In every part of an extension a subtag in small letters leads to the same part, ends
the extension as well or is the same fault. -/
theorem Part.take?_lowered (part : Part) (subtag : List Char) :
    part.take? (lowered subtag) = part.take? subtag := by
  cases part <;>
    simp only [Part.take?, Part.field?, Slot.take?_lowered, utf8Length_lowered,
      isLanguage_lowered, isValue_lowered, isKey_lowered, isField_lowered, isAlphanum_lowered]

namespace Extensions

/-- A small letter opens the same extension as its capital, or repeats it. -/
theorem start_lowered (letters subtag : List Char) :
    start letters (lowered subtag) = start letters subtag := by
  cases subtag with
  | nil => rfl
  | cons first rest =>
    simp only [start, lowered, List.map_cons, Char.isAlpha_toLower_eq_isAlpha,
      Char.toLower_toLower_eq_toLower]

/-- One more subtag among extensions is taken alike in small letters. -/
theorem take_lowered (extensions : Extensions) (subtag : List Char) :
    extensions.take (lowered subtag) = extensions.take subtag := by
  simp only [take, Part.take?_lowered, start_lowered]

/-- Extensions in small letters pass the check, or fail it for the same reason. -/
theorem check_lowered (subtags : List (List Char)) :
    check (subtags.map lowered) = check subtags := by
  cases subtags with
  | nil => rfl
  | cons first rest =>
    simp only [check, List.map_cons, start_lowered, List.foldlM_map, take_lowered]

end Extensions

/-- An identifier in small letters has the same region and ends before the same subtag, or
it is refused for the same reason. -/
theorem readIdentifier_lowered (subtags : List (List Char)) (slot : Slot)
    (region : Option (List Char)) (variants : List (List Char)) :
    readIdentifier slot region variants (subtags.map lowered) =
      (readIdentifier slot region variants subtags).map fun read =>
        (read.1, read.2.map lowered) := by
  induction subtags generalizing slot region variants with
  | nil => rfl
  | cons subtag rest ih =>
    simp only [List.map_cons, readIdentifier, utf8Length_lowered, Slot.take?_lowered,
      isRegion_lowered, raised_lowered, ih]
    split
    · rfl
    · cases slot.take? variants subtag with
      | error fault => rfl
      | ok taken => cases taken <;> rfl

/-- Subtags in small letters are the same language tag, or none for the same reason. -/
theorem ofSubtags_lowered (subtags : List (List Char)) :
    ofSubtags (subtags.map lowered) = ofSubtags subtags := by
  cases subtags with
  | nil => rfl
  | cons first rest =>
    simp only [List.map_cons, ofSubtags, isLanguage_lowered, readIdentifier_lowered,
      lowered_lowered]
    split
    · cases readIdentifier .script none [] rest with
      | error fault => rfl
      | ok read =>
        change ((Extensions.check (read.2.map lowered)).bind fun _ => _) = _
        rw [Extensions.check_lowered]
        rfl
    · rfl

/-- A text is split at a sign in the same places when its letters are made small. -/
theorem splitOn_lowered (text : List Char) {sign : Char} (unlettered : sign.isAlpha = false) :
    (lowered text).splitOn sign = (text.splitOn sign).map lowered := by
  unfold List.splitOn lowered
  induction text with
  | nil => rfl
  | cons c rest ih =>
    rw [List.map_cons, List.splitOnP_cons_eq_if_modifyHead,
      List.splitOnP_cons_eq_if_modifyHead, ih]
    simp only [beq_iff_eq, toLower_eq_iff unlettered]
    split
    · rfl
    · cases List.splitOnP (· == sign) rest <;> rfl

end LanguageTag

/-! ## What a code and a language tag see of a text -/

/-- A character with one sign in place of another and letters made small. -/
def respelled (old new c : Char) : Char := if c = old then new else c.toLower

/-- Two signs are exchanged behind respelling as well as in front of it. -/
theorem respelled_eq {old new : Char} (oldSign : old.isAlpha = false)
    (newSign : new.isAlpha = false) (c : Char) :
    respelled new old c = if respelled old new c = new then old else respelled old new c := by
  have small : old.toLower = old := (toLower_eq_iff oldSign).mpr rfl
  by_cases isOld : c = old
  · simp [respelled, isOld, small]
  by_cases isNew : c = new
  · have small : new.toLower = new := (toLower_eq_iff newSign).mpr rfl
    rw [isNew] at isOld
    simp [respelled, isNew, isOld, small]
  · simp [respelled, isOld, isNew, toLower_eq_iff newSign]

/-- Texts that are alike with one of two signs throughout are alike with the other. -/
theorem map_respelled_of_eq {old new : Char} (oldSign : old.isAlpha = false)
    (newSign : new.isAlpha = false) {first second : List Char}
    (same : first.map (respelled old new) = second.map (respelled old new)) :
    first.map (respelled new old) = second.map (respelled new old) := by
  have back (text : List Char) : text.map (respelled new old) =
      (text.map (respelled old new)).map fun c => if c = new then old else c := by
    rw [List.map_map]
    exact List.map_congr_left fun c _ => respelled_eq oldSign newSign c
  rw [back, back, same]

/-- The subtags in small letters are those of the text in small letters. -/
theorem LanguageTag.map_lowered_subtags (tag : String) :
    (subtags tag).map lowered = (tag.toList.map (respelled '_' '-')).splitOn '-' := by
  rw [subtags, ← splitOn_lowered _ (by decide), lowered, List.map_map]
  refine congrArg (List.splitOn '-') (List.map_congr_left fun c _ => ?_)
  change (if c = '_' then '-' else c).toLower = if c = '_' then '-' else c.toLower
  split <;> rfl

/-- Codes match exactly if their subtags differ in letter case only. -/
theorem normalizeCode_eq_iff {first second : String} :
    normalizeCode first = normalizeCode second ↔
      (LanguageTag.subtags first).map LanguageTag.lowered =
        (LanguageTag.subtags second).map LanguageTag.lowered := by
  have hyphen : '-'.isAlpha = false := by decide
  have underscore : '_'.isAlpha = false := by decide
  rw [LanguageTag.map_lowered_subtags, LanguageTag.map_lowered_subtags]
  constructor
  · intro same
    have alike := map_respelled_of_eq hyphen underscore (String.ofList_injective same)
    exact congrArg (List.splitOn '-') alike
  · intro same
    have alike := congrArg (List.intercalate ['-']) same
    rw [List.intercalate_splitOn, List.intercalate_splitOn] at alike
    exact congrArg String.ofList (map_respelled_of_eq underscore hyphen alike)

/-- Codes that match are the same language tag, or none for the same reason: the grammar
does not see the letter case in which alone their subtags differ. -/
theorem parse_eq_of_match {first second : String}
    (same : normalizeCode first = normalizeCode second) :
    LanguageTag.parse first = LanguageTag.parse second := by
  unfold LanguageTag.parse
  rw [← LanguageTag.ofSubtags_lowered, normalizeCode_eq_iff.mp same,
    LanguageTag.ofSubtags_lowered]

/-- Codes that match have the same plural rule, or none for the same reason. -/
theorem pluralRuleOf_of_match {first second : String}
    (same : normalizeCode first = normalizeCode second) :
    (∃ rule, pluralRuleOf first = .ok rule ∧ pluralRuleOf second = .ok rule) ∨
      ∃ fault, pluralRuleOf first = .error (.invalidLanguage first fault) ∧
        pluralRuleOf second = .error (.invalidLanguage second fault) := by
  unfold pluralRuleOf PluralRule.ofLanguage
  rw [parse_eq_of_match same]
  cases LanguageTag.parse second with
  | error fault => exact .inr ⟨fault, rfl, rfl⟩
  | ok tag => exact .inl ⟨PluralRule.ofTag tag, rfl, rfl⟩

/-! ## The rules of translators -/

namespace Translator

/-- A translator was made of a catalog. -/
def IsOfCatalog (translator : Translator) : Prop :=
  ∃ catalog includeUnfinished, ofCatalog catalog includeUnfinished = .ok translator

namespace IsOfCatalog

variable {translator : Translator}

/-- It still was if unfinished translations are used from now on or are no longer used. -/
theorem withUnfinished (h : translator.IsOfCatalog) (includeUnfinished : Bool) :
    (translator.withUnfinished includeUnfinished).IsOfCatalog := by
  obtain ⟨catalog, _, made⟩ := h
  refine ⟨catalog, includeUnfinished, ?_⟩
  unfold ofCatalog at made ⊢
  cases ruled : catalog.pluralRule with
  | error fault => simp [ruled] at made
  | ok rule =>
    rw [ruled] at made
    injection made with made
    rw [← made]
    rfl

/-- Its plural rule is that of its language. -/
theorem pluralRuleOf_language (h : translator.IsOfCatalog) {language : String}
    (tagged : translator.language = some language) :
    pluralRuleOf language = .ok translator.rule := by
  obtain ⟨catalog, includeUnfinished, made⟩ := h
  unfold ofCatalog at made
  cases ruled : catalog.pluralRule with
  | error fault => simp [ruled] at made
  | ok rule =>
    rw [ruled] at made
    injection made with made
    subst made
    have named : catalog.language = some language := tagged
    rw [Catalog.pluralRule, named] at ruled
    exact ruled

end IsOfCatalog

end Translator

namespace TranslatorSet

variable {set next : TranslatorSet} {translator : Translator} {code : String}

/-- Every translator of a set was made of a catalog. -/
def OfCatalogs (set : TranslatorSet) : Prop :=
  ∀ translator ∈ set.translators, translator.IsOfCatalog

/-- Another translator that was made of a catalog keeps it so. -/
theorem ofCatalogs_insert (all : set.OfCatalogs) (own : translator.IsOfCatalog)
    (added : set.insert translator = .ok next) : next.OfCatalogs := by
  obtain ⟨_, _, _, rfl⟩ := insert_eq_ok added
  intro other member
  rcases List.mem_append.mp member with there | last
  · exact all other there
  · rw [List.mem_singleton.mp last]
    exact own

/-- What a run starts from has translators of catalogs only. -/
theorem ofCatalogs_initial (initial : Initial set) : set.OfCatalogs := by
  have none : empty.OfCatalogs := fun translator member => absurd member List.not_mem_nil
  cases initial with
  | empty => exact none
  | loaded read =>
    refine loadDirectory_induction none (fun all added => ?_) read
    obtain ⟨catalog, translator, made, inserted⟩ := insertFile_eq_ok added
    exact ofCatalogs_insert all ⟨catalog, _, made⟩ inserted

/-- So it is at every moment of a run to which no other translators are added. -/
theorem ofCatalogs_run (all : set.OfCatalogs) {requests : List Request}
    (own : ∀ translator, .insert translator ∈ requests → translator.IsOfCatalog) :
    (set.run requests).OfCatalogs := by
  refine run_induction all (fun asked all => ofCatalogs_insert all (own _ asked)) ?_ id
  intro set next code all switched
  obtain ⟨_, _, rfl⟩ := Option.map_eq_some_iff.mp switched
  exact all

/-- The translator that is found by a code has a language that matches the code. -/
theorem language_of_translator? (found : set.translator? code = some translator) :
    translator ∈ set.translators ∧ ∃ language, translator.language = some language ∧
      normalizeCode language = normalizeCode code := by
  obtain ⟨position, at', there⟩ := Option.bind_eq_some_iff.mp found
  obtain ⟨bound, matching, _⟩ := List.findIdx?_eq_some_iff_getElem.mp at'
  rw [List.getElem?_eq_getElem bound, Option.some.injEq] at there
  rw [there] at matching
  obtain ⟨language, tagged, same⟩ := (Option.any_eq_true _ _).mp matching
  exact ⟨there ▸ List.getElem_mem bound, language, tagged, by simpa using same⟩

/-- The plural rule of a code is that of the translator that is found by it. -/
theorem pluralRuleOf_of_translator? (all : set.OfCatalogs)
    (found : set.translator? code = some translator) : pluralRuleOf code = .ok translator.rule := by
  obtain ⟨member, language, tagged, same⟩ := language_of_translator? found
  have own := (all translator member).pluralRuleOf_language tagged
  rcases pluralRuleOf_of_match same with ⟨rule, first, second⟩ | ⟨fault, first, _⟩
  · rw [second, ← first, own]
  · rw [own] at first
    exact absurd first (by simp)

/-- A language that is made active is that of the translator that is found by the code. -/
theorem activeTranslator?_of_activate? (switched : set.activate? code = some next) :
    ∃ translator, next.activeTranslator? = some translator ∧
      set.translator? code = some translator := by
  obtain ⟨position, found, rfl⟩ := Option.map_eq_some_iff.mp switched
  obtain ⟨translator, named, there⟩ := translator?_of_position? found
  exact ⟨translator, there, named⟩

/-- The matching of codes and the choice of plural rules agree. Codes that match have
the same plural rule, or none for the same reason. So at every moment of a run, from no
translators or those of a directory on and with translators of catalogs added, a code
by which a translator is found, or made active, has a plural rule, and it is the one
of the translator. -/
theorem matched_codes_share_rules :
    (∀ first second, normalizeCode first = normalizeCode second →
      (∃ rule, pluralRuleOf first = .ok rule ∧ pluralRuleOf second = .ok rule) ∨
        ∃ fault, pluralRuleOf first = .error (.invalidLanguage first fault) ∧
          pluralRuleOf second = .error (.invalidLanguage second fault)) ∧
    ∀ start requests, Initial start →
      (∀ translator, .insert translator ∈ requests → translator.IsOfCatalog) →
      ∀ code,
        (∀ translator, (run start requests).translator? code = some translator →
          pluralRuleOf code = .ok translator.rule) ∧
        ∀ next, (run start requests).activate? code = some next →
          ∃ translator, next.activeTranslator? = some translator ∧
            pluralRuleOf code = .ok translator.rule := by
  refine ⟨fun first second => pluralRuleOf_of_match,
    fun start requests initial own code => ⟨fun translator found => ?_, fun next switched => ?_⟩⟩
  · exact pluralRuleOf_of_translator? (ofCatalogs_run (ofCatalogs_initial initial) own) found
  · obtain ⟨translator, active, found⟩ := activeTranslator?_of_activate? switched
    have all := ofCatalogs_run (ofCatalogs_initial initial) own
    exact ⟨translator, active, pluralRuleOf_of_translator? all found⟩

/-- Brazilian Portuguese is found by another spelling of its code, which has the rule of
Brazilian and not of European Portuguese. An empty subtag is refused in both spellings. -/
theorem brazilian_found_by_other_spelling :
    ∃ translator, Translator.ofCatalog ⟨"2.0", some "pt_BR", none, []⟩ true = .ok translator ∧
      (run .empty [.insert (translator.withUnfinished false)]).translator? "PT-br" =
        some (translator.withUnfinished false) ∧
      pluralRuleOf "PT-br" = .ok .zeroOneOther ∧ pluralRuleOf "PT" = .ok .oneOther ∧
      ∃ fault, pluralRuleOf "pt__BR" = .error (.invalidLanguage "pt__BR" fault) ∧
        pluralRuleOf "PT-_br" = .error (.invalidLanguage "PT-_br" fault) := by
  obtain ⟨matching, reached⟩ := matched_codes_share_rules
  let brazilian : Translator := ⟨⟨"2.0", some "pt_BR", none, []⟩, .zeroOneOther, ∅, true⟩
  have made : Translator.ofCatalog ⟨"2.0", some "pt_BR", none, []⟩ true = .ok brazilian := rfl
  have found : (run .empty [.insert (brazilian.withUnfinished false)]).translator? "PT-br" =
      some (brazilian.withUnfinished false) := rfl
  have own : ∀ translator,
      Request.insert translator ∈ [Request.insert (brazilian.withUnfinished false)] →
        translator.IsOfCatalog := by
    intro translator member
    injection List.mem_singleton.mp member with same
    exact same ▸ Translator.IsOfCatalog.withUnfinished ⟨_, true, made⟩ false
  refine ⟨brazilian, made, found, (reached .empty _ .empty own "PT-br").1 _ found, by decide, ?_⟩
  rcases matching "pt__BR" "PT-_br" (by decide) with ⟨rule, accepted, _⟩ | refused
  · cases accepted
  · exact refused

end TranslatorSet

end MessageCatalog
