import Attestation.Ccel.Locate
import Attestation.Device.Basic
import Attestation.EventLog.DigestStyle

/-!
# Settings

What an installation may choose: where event log documents are kept, how digests are written in them, and where
evidence is looked for. Every setting has a default.
-/

namespace Attestation

/-- The choices of an installation. -/
structure Settings where
  /-- The directory that event log documents are written to. -/
  cacheDirectory : String := "/run/ccnp-eventlog/"
  /-- The name of the document in it. -/
  cacheFile : String := "eventlog.log"
  /-- How digests are written in a document. -/
  digestStyle : DigestStyle := .byteArray
  ccel : Ccel.Paths := {}
  devices : DeviceNodes := {}
  deriving DecidableEq, Repr, Inhabited

def Settings.cachePath (settings : Settings) : String := Path.join settings.cacheDirectory settings.cacheFile

end Attestation
