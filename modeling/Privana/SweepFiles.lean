import Mathlib.Data.Char
import Mathlib.Data.List.AList
import Mathlib.Data.List.Lex
import Privana.OnrampIntent
import Privana.SweepService

/-! The record files of `sweep_engine.py`. Each file is read as a record and moved to the path of its
deposit; what is no record is set aside. -/

namespace Privana.SweepFiles

/-- Python's readings of text and of numbers with a fraction. -/
structure Python where
  /-- `str.lower`. -/
  lower : Text → Text
  floatIsZero : Text → Bool
  /-- `value <= 0`. -/
  floatNotPositive : Text → Bool

/-- The fields hold what the file has; without `created_at` it is the time of the reading. -/
structure SweepRecord where
  depositAddress : Json
  chainId : Json
  state : SweepState
  beneficiary : Json
  chainType : Json
  version : Json
  amount : Json
  tokenIdHex : Json
  tokenAddress : Json
  depositIdHex : Json
  sourceTxHash : Json
  depositIndex : Json
  sweepTxHash : Json
  gasFundingTxHash : Json
  createdAt : Option Json
  retryCount : Json
  error : Json

/-- The files of the state directory by name. -/
abbrev Directory := AList fun _ : Text => Text

structure FileNotFoundError where
  path : Text
  deriving DecidableEq

section Record
variable (P : Python)

def truthy : Json → Bool
  | .null => false
  | .bool b => b
  | .int n => n ≠ 0
  | .float lexeme => !P.floatIsZero lexeme
  | .str s => !s.isEmpty
  | .arr items => !items.isEmpty
  | .obj members => !members.isEmpty

/-- `not value <= 0`, for the values that compare with a number. -/
def isPositive : Json → Option Bool
  | .bool b => some b
  | .int n => some (0 < n)
  | .float lexeme => some (!P.floatNotPositive lexeme)
  | _ => none

/-- The keys of an object, each once. -/
def keysOf (members : List (Text × Json)) : List Text := (members.map Prod.fst).eraseDups

/-- A pair of a sequence that is made a dictionary, by its key if that is a text. -/
def pairOf : Json → Option (Option (Text × Json))
  | .arr [.str key, value] => some (some (key, value))
  | .arr [.arr _, _] => none
  | .arr [.obj _, _] => none
  | .arr [_, _] => some none
  | .str [a, b] => some (some ([a], .str [b]))
  | .obj members =>
    match keysOf members with
    | [a, b] => some (some (a, .str b))
    | _ => none
  | _ => none

/-- `dict(data)`. -/
def dictOf : Json → Option (List (Text × Json))
  | .obj members => some members
  | .arr items => (items.mapM pairOf).map fun pairs => pairs.filterMap id
  | .str [] => some []
  | _ => none

/-- Of several members with one key the last counts. -/
def itemOf (data : List (Text × Json)) (key : String) : Option Json :=
  (data.reverse.find? fun x => x.1 = text key).map Prod.snd

def itemOr (data : List (Text × Json)) (key : String) (fallback : Json) : Json :=
  (itemOf data key).getD fallback

def sweepState : Json → Option SweepState
  | .str s =>
    if s = text "pending" then some .PENDING
    else if s = text "gas_funded" then some .GAS_FUNDED
    else if s = text "swept" then some .SWEPT
    else none
  | _ => none

/-- `__post_init__`. -/
def postInit (record : SweepRecord) : Option SweepRecord := do
  let positive ← isPositive P record.chainId
  if positive && truthy P record.depositAddress && truthy P record.beneficiary then some record
  else none

def fromDict (value : Json) : Option SweepRecord := do
  let data ← dictOf value
  let stateItem ← itemOf data "state"
  let state ← sweepState stateItem
  let depositAddress ← itemOf data "deposit_address"
  let chainId ← itemOf data "chain_id"
  let beneficiary ← itemOf data "beneficiary"
  let chainType ← itemOf data "chain_type"
  let version ← itemOf data "version"
  postInit P {
    depositAddress, chainId, state, beneficiary, chainType, version
    amount := itemOr data "amount" (.int 0)
    tokenIdHex := itemOr data "token_id_hex" (.str [])
    tokenAddress := itemOr data "token_address" .null
    depositIdHex := itemOr data "deposit_id_hex" (.str [])
    sourceTxHash := itemOr data "source_tx_hash" (.str [])
    depositIndex := itemOr data "deposit_index" (.int 0)
    sweepTxHash := itemOr data "sweep_tx_hash" .null
    gasFundingTxHash := itemOr data "gas_funding_tx_hash" .null
    createdAt := itemOf data "created_at"
    retryCount := itemOr data "retry_count" (.int 0)
    error := itemOr data "error" .null }

def isRecordKey (key : Text) : Bool :=
  key.length = 64 && key.all fun c => hexAlphabet.contains c

def recordPath (depositIdHex : Text) : Option Text :=
  let key := removePrefix (text "0x") (P.lower depositIdHex)
  if isRecordKey key then some (text "sweep_" ++ key ++ text ".json") else none

/-- The path of the deposit of a record. -/
def homeOf (record : SweepRecord) : Option Text :=
  match record.depositIdHex with
  | .str depositIdHex => recordPath P depositIdHex
  | _ => none

/-- The record in a file, with its path. -/
def readRecord (content : Text) : Option (SweepRecord × Text) := do
  let data ← jsonLoads content
  let record ← fromDict P data
  let expected ← homeOf P record
  some (record, expected)

/-- What is noted of a gas funding hash; nothing if its `lower` raises. -/
def gasFundingHashes (record : SweepRecord) : Option (List Text) :=
  if truthy P record.gasFundingTxHash then
    match record.gasFundingTxHash with
    | .str hash => some [P.lower hash]
    | _ => none
  else some []

end Record

def isSweepFile (name : Text) : Bool :=
  (text "sweep_").isPrefixOf name && (text ".json").isSuffixOf name

/-- The listing of the record files, by name. -/
def sweepFiles (directory : Directory) : List Text :=
  (directory.keys.filter isSweepFile).insertionSort (· ≤ ·)

/-- The name with the suffix `.corrupt` in place of `.json`. -/
def corruptName (name : Text) : Text := name.take (name.length - 5) ++ text ".corrupt"

def rename (directory : Directory) (old new content : Text) : Directory :=
  (directory.erase old).insert new content

structure SweepLoad where
  directory : Directory
  records : List SweepRecord
  gasFundingTxHashes : List Text

section Loading
variable (P : Python)

/-- The handler of a file that raised reads it once more and sets it aside. -/
def setAside (load : SweepLoad) (path : Text) : Except FileNotFoundError SweepLoad :=
  match load.directory.lookup path with
  | none => .error ⟨path⟩
  | some raw => .ok { load with directory := rename load.directory path (corruptName path) raw }

/-- The record of the file now at its path is kept, if its gas funding hash does not raise. -/
def keepRecord (load : SweepLoad) (path : Text) (record : SweepRecord) :
    Except FileNotFoundError SweepLoad :=
  let kept := { load with records := load.records ++ [record] }
  match gasFundingHashes P record with
  | none => setAside kept path
  | some hashes => .ok { kept with gasFundingTxHashes := kept.gasFundingTxHashes ++ hashes }

def loadFile (load : SweepLoad) (path : Text) : Except FileNotFoundError SweepLoad :=
  match load.directory.lookup path with
  | none => setAside load path
  | some content =>
    match readRecord P content with
    | none => setAside load path
    | some (record, expected) =>
      if path = expected then keepRecord P load path record
      else if expected ∈ load.directory then
        .ok { load with directory := load.directory.erase path }
      else
        keepRecord P { load with directory := rename load.directory path expected content } path
          record

/-- `load_incomplete_sweeps`. -/
def loadIncompleteSweeps (directory : Directory) (gasFundingTxHashes : List Text) :
    Except FileNotFoundError SweepLoad :=
  (sweepFiles directory).foldlM (loadFile P) ⟨directory, [], gasFundingTxHashes⟩

end Loading

end Privana.SweepFiles
