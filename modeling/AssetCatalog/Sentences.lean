import AssetCatalog.Run
import AssetCatalog.Value.Access

/-! Preparation of a data set of sentences for training, in two sets. -/

namespace AssetCatalog.Sentences

abbrev Row := List (Value × Value)

def renameColumn (old new : String) (row : Row) : Row :=
  match Value.named old row with
  | some v => Value.put (.text new) v (Value.erase (.text old) row)
  | none => row

def removeColumn (name : String) (row : Row) : Row := Value.erase (.text name) row

def request : String := "Translate the following to Yoda speak: "

def addRequest (row : Row) : Except Fault Row :=
  match Value.named "prompt" row with
  | some (.text s) => pure (Value.put (.text "prompt") (.text (request ++ s)) row)
  | some _ => throw .wrongKind
  | none => throw .noKey

def rest : Value → Except Fault Value
  | .int n => pure (.int (1 - n))
  | .bool b => pure (.int (if b then 0 else 1))
  | .float x => pure (.float (Binary64.sub (.ofInt 1) x))
  | _ => throw .wrongKind

def percentText : Value → Except Fault String
  | .int n =>
    match Binary64.ofInt n with
    | .infinite _ => throw .tooLarge
    | x => pure (Binary64.percent 1 x)
  | .bool b => pure (Binary64.percent 1 (.ofInt (if b then 1 else 0)))
  | .float x => pure (Binary64.percent 1 x)
  | .text _ => throw (.invalid "Unknown format code '%' for object of type 'str'")
  | _ => throw .wrongKind

structure Settings where
  source : Value := .text "dvgodoy/yoda_sentences"
  ratio : Value := .float (.ofDecimal false 8 (-1))
deriving Inhabited

def Settings.ofNamed (named : List (String × Value)) : Except Fault Settings :=
  named.foldlM (fun s (n, v) =>
    match n with
    | "yoda_input_dataset" => pure { s with source := v }
    | "train_split_ratio" => pure { s with ratio := v }
    | _ => throw (.wrongKind s!"unexpected setting '{n}'")) ({} : Settings)

def entryLe (a b : Value × Value) : Bool := Value.memberLe a.1 b.1

def save (rows : List Row) (path : String) : Run Unit :=
  Run.record { name := "save_to_disk"
               positional := [.text path, .list (rows.map fun row =>
                 .list ((row.mergeSort entryLe).map fun e => .list [e.1, e.2]))] }

def renameAll (old new : String) (rows : List Row) : Run (List Row) := do
  Run.record { name := "rename_column", positional := [.text old, .text new] }
  pure (rows.map (renameColumn old new))

def prepare (rows : List Row) (training : Nat) (trainPath evalPath : String) (s : Settings) :
    Run Unit := do
  Run.print s!"Downloading and loading the dataset from {s.source.plain}"
  Run.record { name := "load_dataset", positional := [s.source], named := [("split", .text "train")] }
  Run.print "Renaming columns"
  let rows ← renameAll "sentence" "prompt" rows
  let rows ← renameAll "translation_extra" "completion" rows
  Run.record { name := "remove_columns", positional := [.list [.text "translation"]] }
  let rows := rows.map (removeColumn "translation")
  Run.print "Adding Yoda speak prefix to prompts"
  let rows ← Run.ofExcept (rows.mapM addRequest)
  let trainShare ← Run.ofExcept (percentText s.ratio)
  let evalRatio ← Run.ofExcept (rest s.ratio)
  let evalShare ← Run.ofExcept (percentText evalRatio)
  Run.print (s!"Splitting dataset with {rows.length} rows into train ({trainShare}) " ++
    s!"and eval ({evalShare}) sets")
  Run.record { name := "train_test_split", named := [("seed", .int 42), ("test_size", evalRatio)] }
  let train := rows.take training
  let eval := rows.drop training
  Run.print s!"Train set: {train.length} rows"
  Run.print s!"Eval set: {eval.length} rows"
  Run.print s!"Saving train dataset to {trainPath}"
  save train trainPath
  Run.print s!"Saving eval dataset to {evalPath}"
  save eval evalPath

end AssetCatalog.Sentences
