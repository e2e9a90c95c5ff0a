/-
  CiPipeline.Time.Written
  ───────────────────────
  **The written form of a moment: its text.**
-/
import CiPipeline.Json.Codec
import CiPipeline.Time.Instant

namespace CiPipeline.Time

open Json (Codec)

/-- The written form of a moment. -/
def Instant.codec : Codec Instant where
  encode t := .string t.text
  decode
    | .text piece => do
        let s ← Json.orBroken piece.keep
        match Instant.ofText s with
        | .ok t => .ok t
        | .error e => .error (.mismatch (.badTime e.message))
    | d => d.refuse "an RFC 3339 formatted date and time string"

end CiPipeline.Time
