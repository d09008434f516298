import ApiCatalog.Announcement
import ApiCatalog.Proofs.Json.Coarse
import ApiCatalog.Proofs.Json.Records

/-!
# Snapshots read back

A snapshot is decoded from the text that spells its JSON form, unless arrays and objects stand too
deep in its document (`Snapshot.decode_toJson`). Announcements and their descriptors always are
(`Announcement.undoes`). What is asked of the document, `Snapshot.Storable`, holds of every document
whose members are in key order and whose numbers are spelled by their own texts.
-/

namespace ApiCatalog

open Written (Undoes undoes_text undoes_flag undoes_texts)
open Json (spelledFields optionalMember)

namespace Descriptor

/-- The members of the JSON form, in the order in which they are given. -/
def members (d : Descriptor) : List (String × Json) :=
  [("name", .string d.name), ("kind", .string d.kind), ("singularName", .string d.singularName),
    ("namespaced", .bool d.namespaced), ("verbs", .ofTexts d.verbs)] ++
  optionalMember "group" (d.group.map .string) ++
  optionalMember "version" (d.version.map .string) ++
  optionalMember "shortNames" (d.shortNames.map .ofTexts) ++
  optionalMember "categories" (d.categories.map .ofTexts) ++
  optionalMember "storageVersionHash" (d.storageVersionHash.map .string)

/-- What is found under the keys is what the descriptor says. -/
structure Holds (found : String → Option Json) (d : Descriptor) : Prop where
  name : found "name" = some (.string d.name)
  kind : found "kind" = some (.string d.kind)
  singularName : found "singularName" = some (.string d.singularName)
  namespaced : found "namespaced" = some (.bool d.namespaced)
  verbs : found "verbs" = some (.ofTexts d.verbs)
  group : found "group" = d.group.map .string
  version : found "version" = d.version.map .string
  shortNames : found "shortNames" = d.shortNames.map .ofTexts
  categories : found "categories" = d.categories.map .ofTexts
  storageVersionHash : found "storageVersionHash" = d.storageVersionHash.map .string

/-- Under the key of each field of a descriptor stands that field. -/
theorem holds_members (d : Descriptor) :
    Holds (fun key => Keyed.get? key d.members.reverse) d := by
  constructor <;> simp [members, Keyed.get?_append, Json.get?_optionalMember, Keyed.get?]

/-- A descriptor is decoded from the text that spells it. -/
theorem undoes : Undoes decode toJson := by
  refine ⟨fun d => ?_, fun _ => nofun⟩
  have hfields : d.toJson.spelled.fields? = some (spelledFields (Keyed.ofPairs d.members)) :=
    Written.fields?_ofMembers d.members
  have hhas := Written.has_ofPairs d.members
  have h := d.holds_members
  rw [decode, hfields]
  simp only [Option.bind_eq_bind, Option.bind_some, undoes_text.lastOr_eq "" (h.name ▸ hhas _),
    undoes_text.lastOr_eq "" (h.kind ▸ hhas _), undoes_text.lastOr_eq "" (h.singularName ▸ hhas _),
    undoes_flag.lastOr_eq false (h.namespaced ▸ hhas _),
    undoes_texts.lastOr_eq [] (h.verbs ▸ hhas _), undoes_text.lastOr_none_eq (h.group ▸ hhas _),
    undoes_text.lastOr_none_eq (h.version ▸ hhas _),
    undoes_texts.lastOr_none_eq (h.shortNames ▸ hhas _),
    undoes_texts.lastOr_none_eq (h.categories ▸ hhas _),
    undoes_text.lastOr_none_eq (h.storageVersionHash ▸ hhas _)]

end Descriptor

namespace Announcement

/-- The members of the JSON form. -/
def members (a : Announcement) : List (String × Json) :=
  [("apiVersion", .string formatVersion), ("kind", .string formatKind),
    ("groupVersion", .string a.groupVersion),
    ("resources", .array (a.resources.map Descriptor.toJson))]

/-- An announcement is decoded from the text that spells it. -/
theorem undoes : Undoes decode toJson := by
  refine ⟨fun a => ?_, fun _ => nofun⟩
  have hfields : a.toJson.spelled.fields? = some (spelledFields a.members) :=
    Written.fields?_object a.members
  have hnodup : (a.members.map (·.1)).Nodup := by simp [members]
  have hhas := Written.has_spelledFields hnodup
  have hversion := (hhas "apiVersion").isLabelled
  have hkind := (hhas "kind").isLabelled
  rw [decode, hfields]
  simp only [Option.bind_eq_bind, Option.bind_some, hversion, hkind,
    undoes_text.lastOr_eq "" (hhas "groupVersion"),
    Descriptor.undoes.list.lastOr_eq [] (hhas "resources")]
  rfl

end Announcement

namespace Snapshot

/-- The document of the snapshot can be stored: the members of its objects are in key order, and its
numbers are spelled by the texts that are written for them. -/
structure Storable (s : Snapshot) : Prop where
  ordered : s.openapi.Ordered
  numbers : s.openapi.NumbersReadBack

/-- The members of the JSON form. -/
def members (s : Snapshot) : List (String × Json) :=
  [("announcements", .array (s.announcements.map Announcement.toJson)), ("openapi", s.openapi)]

/-- A snapshot is decoded from the text that spells it, with what its document is read back as. -/
theorem decode_spelled (s : Snapshot) (depth : Nat) :
    decode depth s.toJson.spelled =
      (Written.value? (depth - 1) s.openapi.spelled).map fun openapi => { s with openapi } := by
  have hfields : s.toJson.spelled.fields? = some (spelledFields (Keyed.ofPairs s.members)) :=
    Written.fields?_ofMembers s.members
  have hannouncements : Written.Has (spelledFields (Keyed.ofPairs s.members)) "announcements"
      (some (.array (s.announcements.map Announcement.toJson))) :=
    Written.has_ofPairs s.members "announcements"
  have hopenapi : Written.Has (spelledFields (Keyed.ofPairs s.members)) "openapi"
      (some s.openapi) :=
    Written.has_ofPairs s.members "openapi"
  have hlist := Announcement.undoes.list.decode_form s.announcements
  rw [decode]
  · simp only [hfields, Option.bind_eq_bind, Option.bind_some,
      hannouncements.required, hopenapi.required, hlist]
    cases Written.value? (depth - 1) s.openapi.spelled <;> rfl
  · intro first second h
    cases h

/-- The snapshot with all binary64 numbers of its document made zero. -/
def coarse (s : Snapshot) : Snapshot := { s with openapi := s.openapi.coarse }

/-- A snapshot that is decoded from the text that spells it is that snapshot, up to the binary64
numbers of its document. -/
theorem coarse_of_decode_spelled {s read : Snapshot} {depth : Nat} (hlegible : s.openapi.Legible)
    (h : decode depth s.toJson.spelled = some read) : read.coarse = s.coarse := by
  rw [decode_spelled] at h
  obtain ⟨openapi, hvalue, rfl⟩ := Option.map_eq_some_iff.1 h
  have hsame : openapi.coarse = s.openapi.coarse :=
    Written.coarse_of_value?_spelled s.openapi hlegible.ordered hlegible.fits _ openapi hvalue
  rw [coarse, coarse, hsame]

/-- A snapshot is decoded from the text that spells it, if its document stands low enough. -/
theorem decode_toJson {s : Snapshot} (h : s.Storable) (depth : Nat) :
    decode depth s.toJson.spelled = if s.openapi.depth ≤ depth - 1 then some s else none := by
  rw [decode_spelled, Written.value?_spelled s.openapi h.ordered h.numbers]
  by_cases hdepth : s.openapi.depth ≤ depth - 1 <;> simp [hdepth]

end Snapshot

end ApiCatalog
