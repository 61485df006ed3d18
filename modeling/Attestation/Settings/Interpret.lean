import Attestation.Settings.Basic
import Attestation.Settings.Layer

/-!
# The meaning of settings

A group of settings is a table with their names, or a list with their values in order; what is missing keeps its
default, and what is not known is ignored. A setting of text takes numbers and truth values as their text. The name of
a digest style does not depend on case and may also be the only key of a table.
-/

namespace Attestation.Settings

/-- The greatest integer that is kept as one; those above are doubles. -/
def maxInteger : Int := 0x7FFFFFFFFFFFFFFF

def textOf? : Datum → Option String
  | .text s => some s
  | .boolean b => some (if b then "true" else "false")
  | .integer n => some (if maxInteger < n then (Binary64.ofNat n.toNat).decimalText else toString n)
  | .real x => some x.decimalText
  | _ => none

def styleOf? : Datum → Option DigestStyle
  | .text s => DigestStyle.ofName? (fold s)
  | .table [(name, _)] => DigestStyle.ofName? (fold name)
  | _ => none

/-- A part of a group: by name in a table, by position in a list. -/
def part {α : Type} (read : Datum → Option α) (position : Nat) (name : String) (default : α) :
    (group : Datum) → Option α
  | .table ms => (Members.get? ms name).elim (some default) read
  | .list items => (items[position]?).elim (some default) read
  | _ => none

def ccelOf? (group : Datum) : Option Ccel.Paths := do
  let default : Ccel.Paths := {}
  return {
    table := ← part textOf? 0 "table" default.table group
    tableMount := ← part textOf? 1 "table_mount" default.tableMount group
    data := ← part textOf? 2 "data" default.data group
    dataMount := ← part textOf? 3 "data_mount" default.dataMount group }

def tdxOf? (group : Datum) : Option TdxNodes := do
  let default : TdxNodes := {}
  return {
    deprecated := ← part textOf? 0 "deprecated" default.deprecated group
    v1_0 := ← part textOf? 1 "v1_0" default.v1_0 group
    v1_5 := ← part textOf? 2 "v1_5" default.v1_5 group }

def sevOf? (group : Datum) : Option SevNodes := do
  let default : SevNodes := {}
  return {
    guest := ← part textOf? 0 "guest" default.guest group
    legacy := ← part textOf? 1 "legacy" default.legacy group }

def sgxOf? (group : Datum) : Option SgxNodes := do
  let default : SgxNodes := {}
  return { device := ← part textOf? 0 "device" default.device group }

def tpmOf? (group : Datum) : Option TpmNodes := do
  let default : TpmNodes := {}
  return {
    device := ← part textOf? 0 "device" default.device group
    eventLog := ← part textOf? 1 "eventlog" default.eventLog group }

def devicesOf? (group : Datum) : Option DeviceNodes := do
  return {
    tdx := ← part tdxOf? 0 "tdx" {} group
    sev := ← part sevOf? 1 "sev" {} group
    sgx := ← part sgxOf? 2 "sgx" {} group
    tpm := ← part tpmOf? 3 "tpm" {} group }

def ofDatum? (root : Datum) : Option Settings := do
  let default : Settings := {}
  return {
    cacheDirectory := ← part textOf? 0 "eventlog_cache_dir" default.cacheDirectory root
    cacheFile := ← part textOf? 1 "eventlog_cache_file" default.cacheFile root
    digestStyle := ← part styleOf? 2 "digest_encoding" default.digestStyle root
    ccel := ← part ccelOf? 3 "ccel" {} root
    devices := ← part devicesOf? 4 "devices" {} root }

/-- The values that a file is laid over: the defaults that have no group. -/
def defaults : Datum :=
  let default : Settings := {}
  .table [("eventlog_cache_dir", .text default.cacheDirectory), ("eventlog_cache_file", .text default.cacheFile)]

def ofRoot? (root : Members) : Option Settings := ofDatum? (layFile defaults root)

end Attestation.Settings
