import ApiCatalog.Report.Table
import ApiCatalog.Yaml.Scalar

/-!
# Reports in YAML

`Table.toYaml` writes a report as a list of maps, one for each row, with the keys in order.
-/

namespace ApiCatalog

namespace Yaml

/-- The greatest number of bytes of a key that stands on one line with its value. -/
def simpleKeyLimit : Nat := 128

/-- The key stands on one line with its value. -/
def isSimpleKey (key : String) : Bool :=
  !key.toList.any isBreak && key.utf8ByteSize ≤ simpleKeyLimit

/-- End the line, unless what is written so far ends one. -/
def endLine (written : List Char) : List Char :=
  if written.getLast?.any isBreak then written else written ++ ['\n']

/-- What a cell holds. -/
def writeDatum : Table.Datum → List Char
  | .flag true => ['t', 'r', 'u', 'e']
  | .flag false => ['f', 'a', 'l', 's', 'e']
  | .text value => writeScalar value

/-- A key with its value, where a key that does not fit one line is marked. -/
def writeMember (key : String) (value : Table.Datum) : List Char :=
  if isSimpleKey key then endLine (writeScalar key ++ [':', ' '] ++ writeDatum value)
  else
    endLine (['?', ' '] ++ writeScalar key) ++ [' ', ' '] ++
      endLine ([':', ' '] ++ writeDatum value)

/-- An entry of the list: the members of a map, the first behind a dash and the others below
it. -/
def writeEntry : List (String × Table.Datum) → List Char
  | [] => "- {}\n".toList
  | (key, value) :: members =>
    ['-', ' '] ++ writeMember key value ++
      members.flatMap fun (key, value) => [' ', ' '] ++ writeMember key value

end Yaml

/-- The report in YAML. -/
def Table.toYaml (t : Table) : String :=
  String.ofList (if t.rows = [] then "[]\n".toList else t.records.flatMap Yaml.writeEntry)

end ApiCatalog
