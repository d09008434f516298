import ApiCatalog.CommandLine.Options
import ApiCatalog.Proofs.Json.Values
import ApiCatalog.Proofs.Traversal

/-!
# Reports read back from JSON

The JSON text of a report is read to the value that was written (`read_pretty_toJson`). Every report
on a catalog is regular: its columns have different names, each row has a cell for each of them, and
columns of truth values hold nothing else (`regular_report`). In a regular report nothing is left
out and nothing overwritten when a row is made an object, so `readRows?` finds the rows again in the
text (`json_report_read_back`).
-/

namespace ApiCatalog

open Json (ItemsOrdered MembersOrdered ItemsReadBack MembersReadBack itemsDepth membersDepth)

namespace Table

/-- The cell in which a datum stands. -/
def Datum.cell : Datum → String
  | .flag value => flagCell value
  | .text value => value

/-- The datum of a JSON value that is a truth value or a text. -/
def Datum.ofJson? : Json → Option Datum
  | .bool value => some (.flag value)
  | .string value => some (.text value)
  | _ => none

/-- The row that an object shows in the given columns. -/
def readRow? (columns : List String) (object : Json) : Option (List String) :=
  columns.mapM fun column => ((object.member? column).bind Datum.ofJson?).map Datum.cell

/-- The rows that a list of objects shows in the given columns. -/
def readRows? (columns : List String) (json : Json) : Option (List (List String)) :=
  json.items?.bind fun objects => objects.mapM (readRow? columns)

/-- A row has a cell for each column, and where the column holds truth values the cell spells
one. -/
structure FitsRow (columns row : List String) : Prop where
  length : row.length = columns.length
  flags : ∀ pair ∈ columns.zip row, pair.1 ∈ flagColumns → ∃ value, pair.2 = flagCell value

/-- The columns have different names, and all rows fit them. -/
structure Regular (t : Table) : Prop where
  columns : t.columns.Nodup
  rows : ∀ row ∈ t.rows, FitsRow t.columns row

/-- An object shows a row. Its keys are the columns, each of them once, and under each column stands
what the cell of the column says: the truth value that it spells in the columns that hold truth
values, and its text in all others. -/
structure ShowsRow (columns row : List String) (object : Json) : Prop where
  keys : ∃ members, object = .object members ∧ (members.map (·.1)).Perm columns
  length : row.length = columns.length
  flags : ∀ column cell, (column, cell) ∈ columns.zip row →
    column ∈ ["namespaced", "has_field"] →
      ∃ value, cell = (if value then "true" else "false") ∧
        object.member? column = some (.bool value)
  texts : ∀ column cell, (column, cell) ∈ columns.zip row →
    column ∉ ["namespaced", "has_field"] → object.member? column = some (.string cell)

/-- The object that is made of a row. -/
def rowObject (columns row : List String) : Json :=
  .object ((record columns row).map fun member => (member.1, member.2.toJson))

variable {t : Table} {columns row : List String} {column cell : String}

/-- A table is written as an array of its rows. -/
theorem toJson_eq (t : Table) : t.toJson = .array (t.rows.map (rowObject t.columns)) := by
  rw [toJson, records, List.map_map]
  rfl

/-! ## The text -/

/-- The object for a row is in order. -/
theorem ordered_rowObject (columns row : List String) : (rowObject columns row).Ordered := by
  refine ⟨List.pairwise_map.2 (Keyed.ordered_ofPairs _), Json.membersOrdered_iff.2 ?_⟩
  intro member hmem
  obtain ⟨source, -, rfl⟩ := List.mem_map.1 hmem
  cases source.2 <;> trivial

/-- The object for a row has no numbers that might be read as others. -/
theorem numbersReadBack_rowObject (columns row : List String) :
    (rowObject columns row).NumbersReadBack := by
  show MembersReadBack _
  induction record columns row with
  | nil => trivial
  | cons member members ih =>
      refine ⟨?_, ih⟩
      cases member.2 <;> trivial

/-- The object for a row has one level. -/
theorem depth_rowObject (columns row : List String) : (rowObject columns row).depth = 1 := by
  refine congrArg (· + 1) (?_ : membersDepth _ = 0)
  induction record columns row with
  | nil => rfl
  | cons member members ih =>
      have hdatum : member.2.toJson.depth = 0 := by cases member.2 <;> rfl
      rw [List.map_cons, membersDepth, hdatum, ih, Nat.max_self]

/-- The text of a report is read to the value that was written. -/
theorem read_pretty_toJson (t : Table) : Json.read t.toJson.pretty = some t.toJson := by
  have hordered : ItemsOrdered (t.rows.map (rowObject t.columns)) := by
    induction t.rows with
    | nil => trivial
    | cons row rows ih => exact ⟨ordered_rowObject t.columns row, ih⟩
  have hnumbers : ItemsReadBack (t.rows.map (rowObject t.columns)) := by
    induction t.rows with
    | nil => trivial
    | cons row rows ih => exact ⟨numbersReadBack_rowObject t.columns row, ih⟩
  have hdepth : itemsDepth (t.rows.map (rowObject t.columns)) ≤ 1 := by
    induction t.rows with
    | nil => exact Nat.zero_le 1
    | cons row rows ih =>
        rw [List.map_cons, itemsDepth, depth_rowObject]
        exact Nat.max_le.2 ⟨Nat.le_refl 1, ih⟩
  rw [Json.read, Json.read_pretty, Option.bind_some, toJson_eq,
    Written.value?_spelled (.array _) hordered hnumbers, if_pos]
  exact Nat.le_trans (Nat.succ_le_succ hdepth) (by decide)

/-! ## Rows as objects -/

/-- No cell is changed when it is taken as data. -/
theorem cell_datum (column cell : String) : (datum column cell).cell = cell := by
  unfold datum
  split
  next =>
    split
    next htrue => exact htrue.symm
    next =>
      split
      next hfalse => exact hfalse.symm
      next => rfl
  next => rfl

/-- A datum is read back from what is written for it. -/
theorem ofJson?_toJson (datum : Datum) : Datum.ofJson? datum.toJson = some datum := by
  cases datum <;> rfl

/-- The cell of a flag, in a column for flags, is written as this flag. -/
theorem datum_flagCell (hcolumn : column ∈ flagColumns) (value : Bool) :
    datum column (flagCell value) = .flag value := by
  rw [datum, if_pos hcolumn]
  cases value <;> rfl

/-- The pairs of which the record of a row is made. -/
theorem record_eq (columns row : List String) :
    record columns row =
      Keyed.ofPairs ((columns.zip row).map fun pair => (pair.1, datum pair.1 pair.2)) := by
  rw [record, List.map_zip_eq_zipWith]
  rfl

/-- The keys of a row are the columns. -/
theorem keys_pairs (hlength : row.length = columns.length) :
    ((columns.zip row).map fun pair => (pair.1, datum pair.1 pair.2)).map (·.1) = columns := by
  rw [List.map_map]
  exact List.map_fst_zip hlength.ge

/-- Where the columns have different names, each cell is found under the name of its column. -/
theorem member?_rowObject (hnodup : columns.Nodup) (hlength : row.length = columns.length)
    (hmem : (column, cell) ∈ columns.zip row) :
    (rowObject columns row).member? column = some (datum column cell).toJson := by
  have hkeys := (keys_pairs hlength).symm ▸ hnodup
  have hfound : Keyed.get? column (record columns row) = some (datum column cell) := by
    rw [record_eq]
    exact Keyed.get?_ofPairs_of_mem hkeys (List.mem_map.2 ⟨_, hmem, rfl⟩)
  show Keyed.get? column _ = _
  rw [Keyed.get?_map, hfound, Option.map_some]

/-- The object of a row that fits the columns shows the row. -/
theorem FitsRow.showsRow (h : FitsRow columns row) (hnodup : columns.Nodup) :
    ShowsRow columns row (rowObject columns row) := by
  refine ⟨⟨_, rfl, ?_⟩, h.length, fun column cell hmem hcolumn => ?_,
    fun column cell hmem hcolumn => ?_⟩
  · have hkeys := keys_pairs h.length
    rw [List.map_map, record_eq]
    refine ((Keyed.perm_ofPairs (hkeys.symm ▸ hnodup)).map (·.1)).trans ?_
    exact .of_eq hkeys
  · obtain ⟨value, hvalue⟩ := h.flags (column, cell) hmem hcolumn
    obtain rfl : cell = flagCell value := hvalue
    refine ⟨value, rfl, ?_⟩
    rw [member?_rowObject hnodup h.length hmem, datum_flagCell hcolumn]
    rfl
  · have hdatum : datum column cell = .text cell := if_neg hcolumn
    rw [member?_rowObject hnodup h.length hmem, hdatum]
    rfl

/-- The row is found again in its object. -/
theorem readRow?_rowObject (hnodup : columns.Nodup) (hlength : row.length = columns.length) :
    readRow? columns (rowObject columns row) = some row := by
  rw [readRow?, Traversal.mapM_eq_some_iff, List.forall₂_iff_zip]
  refine ⟨hlength.symm, fun hmem => ?_⟩
  rw [member?_rowObject hnodup hlength hmem, Option.bind_some, ofJson?_toJson, Option.map_some,
    cell_datum]

/-- All rows of a regular table are found again in its objects. -/
theorem Regular.readRows?_toJson (h : t.Regular) : readRows? t.columns t.toJson = some t.rows := by
  rw [toJson_eq, readRows?, Json.items?, Option.bind_some, Traversal.mapM_eq_some_iff,
    List.forall₂_map_left_iff, List.forall₂_same]
  exact fun row hmem => readRow?_rowObject h.columns (h.rows row hmem).length

/-! ## The reports on a catalog -/

/-- Listings are regular. -/
theorem regular_listing (c : Catalog) : (listing c).Regular := by
  refine ⟨by simp [listing], fun row hmem => ?_⟩
  obtain ⟨entry, -, hmem⟩ := List.mem_flatMap.1 hmem
  obtain ⟨r, -, rfl⟩ := List.mem_map.1 hmem
  refine ⟨rfl, ?_⟩
  simp [listing, listingRow, flagColumns, -Bool.exists_bool]

/-- Descriptions are regular. -/
theorem regular_description {c : Catalog} {name : String} (h : description c name = .ok t) :
    t.Regular := by
  obtain ⟨resources, -, rfl⟩ := Traversal.map_eq_ok_iff.1 h
  refine ⟨by simp, fun row hmem => ?_⟩
  obtain ⟨r, -, rfl⟩ := List.mem_map.1 hmem
  refine ⟨rfl, ?_⟩
  simp [descriptionRow, flagColumns, -Bool.exists_bool]

/-- Reports on a field are regular. -/
theorem regular_fieldSupport {c : Catalog} {name path : String}
    (h : fieldSupport c name path = .ok t) : t.Regular := by
  obtain ⟨resources, -, rfl⟩ := Traversal.map_eq_ok_iff.1 h
  refine ⟨by simp, fun row hmem => ?_⟩
  obtain ⟨r, -, hmem⟩ := List.mem_flatMap.1 hmem
  rcases List.mem_cons.1 hmem with rfl | hmem
  · refine ⟨rfl, ?_⟩
    simp [flagColumns, -Bool.exists_bool]
  · obtain ⟨s, -, rfl⟩ := List.mem_map.1 hmem
    refine ⟨rfl, ?_⟩
    simp [flagColumns, -Bool.exists_bool]

/-- Every report on a catalog is regular. -/
theorem regular_report {c : Catalog} {command : Command} (h : command.report c = .ok t) :
    t.Regular := by
  cases command with
  | list =>
      obtain rfl := Except.ok.inj h
      exact regular_listing c
  | describe name => exact regular_description h
  | hasField name path => exact regular_fieldSupport h

/-- The JSON text of every report on a catalog is read as a list of objects, one for each row and in
the order of the rows, that show the rows. So the rows are found again in the text. -/
theorem json_report_read_back {c : Catalog} {command : Command} (h : command.report c = .ok t)
    (withHeader : Bool) :
    ∃ objects, Json.read (t.render .json withHeader) = some (.array objects) ∧
      List.Forall₂ (ShowsRow t.columns) t.rows objects ∧
      readRows? t.columns (.array objects) = some t.rows := by
  have hregular := regular_report h
  refine ⟨t.rows.map (rowObject t.columns), ?_, ?_, ?_⟩
  · rw [← toJson_eq]
    exact read_pretty_toJson t
  · rw [List.forall₂_map_right_iff, List.forall₂_same]
    exact fun row hmem => (hregular.rows row hmem).showsRow hregular.columns
  · rw [← toJson_eq]
    exact hregular.readRows?_toJson

namespace Misleading

/-- A resource whose texts are those of truth values, with a name that has to be escaped. -/
def resource : Resource where
  descriptor :=
    { name := "\"pods\\\n", kind := "true", namespaced := true, shortNames := some ["false"] }
  groupVersion := ⟨"", "v1"⟩
  schema := ⟨⟨[]⟩, "Pod"⟩

/-- The catalog of this resource. -/
def catalog : Catalog := .ofList [resource]

/-- The row of the resource is found again, and its kind is still a text. -/
theorem row_read_back :
    Command.list.report catalog = .ok (listing catalog) ∧
      ∃ objects, Json.read ((listing catalog).render .json true) = some (.array objects) ∧
        List.Forall₂ (ShowsRow (listing catalog).columns) (listing catalog).rows objects ∧
        readRows? (listing catalog).columns (.array objects) =
          some [["\"pods\\\n", "core", "v1", "true", "true", "", "false"]] := by
  have hreport : Command.list.report catalog = .ok (listing catalog) := rfl
  have hrows : (listing catalog).rows =
      [["\"pods\\\n", "core", "v1", "true", "true", "", "false"]] := by decide
  rw [← hrows]
  exact ⟨hreport, json_report_read_back hreport true⟩

end Misleading

end Table

end ApiCatalog
