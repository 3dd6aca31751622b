import Scanout.Scale.Resample
import Scanout.Source.Decoder

/-!
# Services

A run relies on parts that are not its own: one that fetches pictures from other
machines, one that decodes picture files, and one that resamples.  A run is told
which ones it has by its `Services`.  What is proved of a run is proved for all
of them, and what may be relied on stands in their types: a request is over in
time (`Download`), a decoded picture has the bytes of its size (`Raster`), and a
scaled picture has those of the wanted size (`Resampler`).

The services of a run that is told nothing read binary netpbm files, resample
with the filters, and reach no other machine.
-/

namespace Scanout

/-! ## Fetching pictures -/

/-- How long a picture may take to arrive, in milliseconds. -/
def downloadTimeout : Nat := 10000

/-- What comes of a request for a picture. -/
structure Download where
  /-- Milliseconds before it is over. -/
  delay : Nat := 0
  /-- The bytes of a picture file, or why there are none. -/
  result : Except String ByteArray
  /-- A request that takes too long is given up. -/
  in_time : delay ≤ downloadTimeout := by decide

/-- What the requests to come will bring, in their order. -/
abbrev Client := Nat → Download

namespace Client

/-- The client after a request. -/
def next (c : Client) : Client := fun k => c (k + 1)

/-- A client that reaches no other machine. -/
def offline : Client := fun _ => { result := .error "remote pictures cannot be fetched" }

end Client

/-! ## Services -/

/-- What a run relies on. -/
structure Services where
  /-- Reads picture files. -/
  decoder : Decoder := Netpbm.decoder
  /-- Sets up a client for an address, or says why that failed. -/
  connect : String → Except String Client := fun _ => .ok .offline
  /-- Resamples with a filter. -/
  resampler : Filter → Resampler := Filter.resampler

end Scanout
