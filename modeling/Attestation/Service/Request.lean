import Attestation.Fault

/-!
# Requests to the service

Requests come over the wire with plain numbers in them. `Level.ofNumber`, `EventLogCategory.ofNumber` and
`MeasurementCategory.ofNumber` give them their meaning, and `ServiceFault` lists what a request can fail with.
-/

namespace Attestation

/-! ## Failures -/

/-- What is wrong with a request. -/
inductive RequestDefect where
  | negativeStart (value : Int)
  | negativeCount (value : Int)
  | negativeRegister (value : Int)
  | unknownLevel (value : Int)
  | unknownEventLogCategory (value : Int)
  | unknownMeasurementCategory (value : Int)
  deriving DecidableEq, Repr

def RequestDefect.message : RequestDefect → String
  | negativeStart value => "negative start position " ++ toString value
  | negativeCount value => "negative count " ++ toString value
  | negativeRegister value => "negative register index " ++ toString value
  | unknownLevel value => "unknown level " ++ toString value
  | unknownEventLogCategory value => "unknown eventlog category " ++ toString value
  | unknownMeasurementCategory value => "unknown measurement category " ++ toString value

/-- Why a request is not served. -/
inductive ServiceFault where
  /-- The request itself makes no sense. -/
  | invalidRequest (defect : RequestDefect)
  /-- There is no evidence to serve. -/
  | evidence (fault : Fault)
  /-- The document cannot be written. -/
  | cacheUnwritten (path : String) (cause : OsError)
  /-- There is no settings file at this path. -/
  | settingsNotFound (path : String)
  /-- The settings file cannot be used. -/
  | invalidSettings
  deriving DecidableEq, Repr

namespace ServiceFault

def message : ServiceFault → String
  | invalidRequest defect => "Invalid Request: " ++ defect.message
  | evidence fault => fault.message
  | cacheUnwritten path _ => "failed to write event log to " ++ path
  | settingsNotFound path => "config file " ++ path ++ " not found"
  | invalidSettings => "invalid config"

/-- What the operating system said, where it was asked. -/
def cause? : ServiceFault → Option OsError
  | evidence fault => fault.cause?
  | cacheUnwritten _ cause => some cause
  | _ => none

end ServiceFault

/-! ## The meaning of numbers -/

/-- Whose evidence is asked for. -/
inductive Level where
  /-- A container. Its evidence is not collected, and replies are empty. -/
  | saas
  /-- The guest. -/
  | paas
  deriving DecidableEq, Repr

def Level.name : Level → String
  | saas => "SAAS"
  | paas => "PAAS"

def Level.ofNumber (value : Int) : Except ServiceFault Level :=
  if value = 0 then .ok .saas
  else if value = 1 then .ok .paas
  else .error (.invalidRequest (.unknownLevel value))

/-- Which event log is asked for. -/
inductive EventLogCategory where
  | tdx
  | tpm
  deriving DecidableEq, Repr

def EventLogCategory.name : EventLogCategory → String
  | tdx => "TDX_EVENTLOG"
  | tpm => "TPM_EVENTLOG"

def EventLogCategory.ofNumber (value : Int) : Except ServiceFault EventLogCategory :=
  if value = 0 then .ok .tdx
  else if value = 1 then .ok .tpm
  else .error (.invalidRequest (.unknownEventLogCategory value))

/-- Which measurement is asked for. -/
inductive MeasurementCategory where
  /-- A report of the first device that is found. -/
  | teeReport
  /-- A runtime measurement register of a TDX guest. -/
  | tdxRegister
  /-- A register of a TPM. -/
  | tpm
  deriving DecidableEq, Repr

def MeasurementCategory.name : MeasurementCategory → String
  | teeReport => "TEE_REPORT"
  | tdxRegister => "TDX_RTMR"
  | tpm => "TPM"

def MeasurementCategory.ofNumber (value : Int) : Except ServiceFault MeasurementCategory :=
  if value = 0 then .ok .teeReport
  else if value = 1 then .ok .tdxRegister
  else if value = 2 then .ok .tpm
  else .error (.invalidRequest (.unknownMeasurementCategory value))

/-- A number that must not be negative; `defect` tells which one it is. -/
def nonNegative (defect : Int → RequestDefect) (value : Int) : Except ServiceFault Nat :=
  if value < 0 then .error (.invalidRequest (defect value)) else .ok value.toNat

/-! ## Requests -/

/-- A request for a window of an event log. -/
structure EventLogRequest where
  level : Int
  category : Int
  start : Int
  count : Int
  deriving DecidableEq, Repr

/-- A request for a measurement. -/
structure MeasurementRequest where
  level : Int
  category : Int
  reportData : String
  register : Int
  deriving DecidableEq, Repr

end Attestation
