import Attestation.Device.Basic
import Attestation.TdReport.Basic

/-!
# Requests to a TDX driver

A TDX driver gives a report for 64 bytes of report data. The two supported drivers share one command and differ in
what the request points at, which its number tells by the size of the argument. `RequestMemory` is what the driver finds
there and leaves behind. A `Driver` is whatever answers requests; an `Inquiry` keeps a result together with the requests
that were issued for it.
-/

namespace Attestation

/-- The number of bytes of report data in a request. -/
def reportDataSize : Nat := 64

/-- What is handed to a TDX driver. -/
inductive DriverRequest where
  /-- The layout of the v1.0 driver: a descriptor of two buffers, one with the report data and one for the report,
  with their lengths. -/
  | descriptor (subtype : UInt8) (reportData : Block reportDataSize) (reportDataLength reportLength : UInt32)
  /-- The layout of the v1.5 driver: one buffer, in which the report is filled in behind the report data. -/
  | inPlace (reportData : Block reportDataSize)
  deriving DecidableEq, Repr

namespace DriverRequest

/-- The number of the command `T 1` that reads and writes an argument of `size` bytes. -/
def commandNumber (size : Nat) : Nat := 3 <<< 30 + size <<< 16 + 0x54 <<< 8 + 1

/-- The number of a request. The descriptor is numbered as the address that stands for it. -/
def number : DriverRequest → Nat
  | descriptor .. => commandNumber 8
  | inPlace _ => commandNumber (reportDataSize + TdReport.size)

def reportData : DriverRequest → Block reportDataSize
  | descriptor _ data _ _ => data
  | inPlace data => data

/-- The request for a report from a driver, of which the deprecated one takes none. -/
def forDriver? (driver : TdxDriver) (data : Block reportDataSize) : Option DriverRequest :=
  match driver with
  | .deprecated => none
  | .v1_0 => some (.descriptor 0 data (UInt32.ofNat reportDataSize) (UInt32.ofNat TdReport.size))
  | .v1_5 => some (.inPlace data)

end DriverRequest

/-! ## Memory -/

/-- The memory that a request hands over, which the driver works on. -/
inductive RequestMemory where
  /-- Two buffers, which the descriptor of a v1.0 request points at. -/
  | separate (reportData : Block reportDataSize) (report : Block TdReport.size)
  /-- The one buffer of a v1.5 request, in which the report stands behind the report data. -/
  | contiguous (buffer : Block (reportDataSize + TdReport.size))
  deriving DecidableEq, Repr

namespace RequestMemory

/-- The memory when the driver is called: the report data, and zeros where the report goes. -/
def ofRequest : DriverRequest → RequestMemory
  | .descriptor _ data _ _ => separate data (.zeros TdReport.size)
  | .inPlace data => contiguous (data.append (.zeros TdReport.size))

def reportData : RequestMemory → Block reportDataSize
  | separate data _ => data
  | contiguous buffer => (buffer.split reportDataSize).1

/-- What is taken for the report when the driver is done. -/
def report : RequestMemory → Block TdReport.size
  | separate _ report => report
  | contiguous buffer => (buffer.split reportDataSize).2

/-- The memory with a report filled in. -/
def fill (memory : RequestMemory) (report : Block TdReport.size) : RequestMemory :=
  match memory with
  | separate data _ => separate data report
  | contiguous buffer => contiguous ((buffer.split reportDataSize).1.append report)

end RequestMemory

/-! ## Drivers -/

/-- What answers driver requests. -/
abbrev Driver := DriverRequest → Except OsError (Block TdReport.size)

/-- A driver as the kernel runs it: it refuses a request or changes its memory. -/
abbrev Kernel := DriverRequest → RequestMemory → Except OsError RequestMemory

namespace Driver

/-- A file without a driver behind it answers no request. -/
def absent : Driver := fun _ => .error .notADevice

def failing (cause : OsError) : Driver := fun _ => .error cause

/-- The answers that a guest gets from a kernel: the report of the memory after the call. -/
def ofKernel (kernel : Kernel) : Driver := fun request =>
  (kernel request (.ofRequest request)).map RequestMemory.report

def reportDataOffset : Nat := 128

/-- A report with other report data. -/
def withReportData (report : Block TdReport.size) (data : Block reportDataSize) : Block TdReport.size :=
  ⟨report.bytes.take reportDataOffset ++ data.bytes ++ report.bytes.drop (reportDataOffset + reportDataSize), by
    have := report.length_eq
    have := data.length_eq
    simp [reportDataOffset, reportDataSize, TdReport.size] at *
    omega⟩

end Driver

/-- A kernel that fills a fixed report in, with the report data that it finds. -/
def Kernel.filling (report : Block TdReport.size) : Kernel := fun _ memory =>
  .ok (memory.fill (Driver.withReportData report memory.reportData))

namespace Driver

/-- A driver that fills the report data of the request into a fixed report. -/
def filling (report : Block TdReport.size) : Driver := ofKernel (.filling report)

end Driver

/-- A result with the driver requests that were issued for it, in order. -/
structure Inquiry (α : Type) where
  result : Except Fault α
  requests : List DriverRequest

namespace Inquiry

/-- A result without any request. -/
def ofResult {α : Type} (result : Except Fault α) : Inquiry α := ⟨result, []⟩

def andThen {α β : Type} (inquiry : Inquiry α) (f : α → Except Fault β) : Inquiry β :=
  ⟨inquiry.result.bind f, inquiry.requests⟩

end Inquiry

end Attestation
