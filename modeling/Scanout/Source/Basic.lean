import Scanout.Clock
import Scanout.Files.Tree
import Scanout.Journal
import Scanout.Services
import Scanout.Source.Framebuffer
import Scanout.Source.Pattern

/-!
# Picture sources

A `Source` gives a frame whenever it is asked: a test pattern, a picture file, a
picture on another machine, a framebuffer, a script that was written down
beforehand, or a chain of other sources.  `Source.acquire` asks it.  The answer
says what came of it and after how long, and how the source stands afterwards;
an answer may also never come.

How pictures are fetched and decoded is left to the client and the decoder that
a source brings along.

A chain asks its providers in order and takes the first answer that is not an
error a loop would step over.  Providers after that one are not asked.

`Location.classify` tells what the operator named on the command line: a file, a
remote picture, or nothing.
-/

namespace Scanout

/-! ## Decoded pictures -/

/-- The frame of a picture file, which came from an origin. -/
def Frame.decode (origin : String) (bytes : ByteArray) (decoder : Decoder := Netpbm.decoder) :
    Outcome Frame :=
  match decoder bytes with
  | .error reason => report (.sourceUnavailable origin ("decode failed: " ++ reason))
  | .ok r => Frame.ofBytes r.size r.bytes

/-- Whatever the decoder, a frame or an error comes of a picture file. -/
theorem Frame.decode_ne_fault (origin : String) (bytes : ByteArray) (decoder : Decoder) :
    Frame.decode origin bytes decoder ≠ fault := by
  unfold Frame.decode
  intro h
  cases hdecoded : decoder bytes with
  | error reason =>
      rw [hdecoded] at h
      cases h
  | ok r =>
      have hword : r.size.byteLength < wordLimit := Nat.lt_trans r.length_lt (by decide)
      rw [hdecoded] at h
      dsimp only [Frame.ofBytes] at h
      split at h
      · rw [dif_pos r.length_eq] at h
        cases h
      · cases h

/-! ## Sources -/

/-- One answer of a script. -/
structure ScriptedReply where
  /-- Milliseconds before it comes. -/
  delay : Nat := 0
  /-- What comes, or none if nothing ever comes. -/
  result : Option (Outcome Frame)

/-- Where pictures come from. -/
inductive Source where
  /-- A moving test pattern. -/
  | pattern (p : TestPattern)
  /-- A picture file. -/
  | image (path : String) (decoder : Decoder := Netpbm.decoder)
  /-- A picture on another machine. -/
  | remote (url : String) (client : Client) (decoder : Decoder)
  /-- What another screen shows. -/
  | framebuffer (fb : Framebuffer)
  /-- A script whose replies come in a circle, the next one first. -/
  | script (name : String) (replies : List ScriptedReply)
  /-- Several sources, asked in order. -/
  | chain (providers : List Source)

/-- What became of asking a source. -/
structure Acquired where
  /-- Milliseconds before the result came. -/
  delay : Nat := 0
  /-- The frame or what stands in its place; none if nothing ever comes. -/
  result : Option (Outcome Frame)
  source : Source
  /-- Lines for the log. -/
  notes : List Note := []

namespace Source

mutual

def name : Source → String
  | pattern p => p.name
  | image path _ => path
  | remote url _ _ => url
  | framebuffer fb => fb.path
  | script name _ => name
  | chain providers => "chain[" ++ ", ".intercalate (names providers) ++ "]"

/-- The names of several sources. -/
def names : List Source → List String
  | [] => []
  | s :: ss => s.name :: names ss

end

/-- The error of a chain whose providers all failed, the last of them with this
error. -/
def exhausted (chain : String) : Option Error → Error
  | some (.sourceUnavailable _ reason) =>
      .sourceUnavailable chain ("all providers failed, last: " ++ reason)
  | some e => e
  | none => .sourceUnavailable chain "no providers configured"

/-- The picture in a file. -/
def readImage (path : String) (decoder : Decoder) (t : FileTree) : Outcome Frame :=
  match t.read path with
  | .error e => report (.sourceUnavailable path e.message)
  | .ok bytes => Frame.decode path bytes decoder

/-- What the log says about a picture file that was read. -/
def imageNotes (path : String) : Outcome Frame → List Note
  | .ok f => [⟨.info, "Loaded " ++ path ++ " (" ++ f.size.text ++ ")"⟩]
  | .error _ => []

/-- The picture that a request brings. -/
def receive (url : String) (decoder : Decoder) (d : Download) : Outcome Frame :=
  match d.result with
  | .error reason => report (.sourceUnavailable url reason)
  | .ok bytes => Frame.decode url bytes decoder

/-- What the log says about a picture file that was fetched. -/
def downloadNotes (url : String) (d : Download) : List Note :=
  match d.result with
  | .error _ => []
  | .ok bytes => [⟨.info, "Downloaded " ++ toString bytes.size ++ " bytes from " ++ url⟩]

/-- What became of asking the providers of a chain. -/
structure Polled where
  /-- Milliseconds before the result came. -/
  delay : Nat := 0
  /-- The answer that ended the search; none if nothing ever comes. -/
  result : Option (Outcome Frame)
  providers : List Source
  /-- Lines for the log. -/
  notes : List Note := []

/-- What the log says about a provider that failed. -/
def failureNote (provider : String) (e : Error) : Note :=
  ⟨.warn, "Provider " ++ provider ++ " failed: " ++ e.message⟩

mutual

/-- Ask a source for a frame. -/
def acquire (t : FileTree) : Source → Acquired
  | pattern p =>
      match TestPattern.render p.size p.tick with
      | .ok f => { result := some (.ok f), source := pattern p.next }
      | .error e => { result := some (.error e), source := pattern p }
  | image path decoder =>
      let result := readImage path decoder t
      { result := some result, source := image path decoder, notes := imageNotes path result }
  | remote url client decoder =>
      let d := client 0
      { delay := d.delay, result := some (receive url decoder d),
        source := remote url client.next decoder, notes := downloadNotes url d }
  | framebuffer fb => { result := some (fb.acquire t), source := framebuffer fb }
  | script name [] => { result := some fault, source := script name [] }
  | script name (r :: rs) =>
      { delay := r.delay, result := r.result, source := script name (rs ++ [r]) }
  | chain providers =>
      let p := poll t ("chain[" ++ ", ".intercalate (names providers) ++ "]") none providers
      { delay := p.delay, result := p.result, source := chain p.providers, notes := p.notes }

/-- Ask providers in order.  `last` is the error of the one before, if there was one. -/
def poll (t : FileTree) (chain : String) (last : Option Error) : List Source → Polled
  | [] => { result := some (report (exhausted chain last)), providers := [] }
  | s :: ss =>
      let a := acquire t s
      match a.result with
      | some (.error (.error e)) =>
          if e.skippable then
            let p := poll t chain (some e) ss
            { delay := a.delay + p.delay, result := p.result, providers := a.source :: p.providers,
              notes := a.notes ++ failureNote s.name e :: p.notes }
          else
            { delay := a.delay, result := a.result, providers := a.source :: ss, notes := a.notes }
      | result => { delay := a.delay, result, providers := a.source :: ss, notes := a.notes }

end

end Source

/-! ## Locations -/

/-- What the operator named as a picture. -/
inductive Location where
  | file (path : String)
  /-- A picture on another machine. -/
  | url (address : String)
  /-- Neither. -/
  | unknown (text : String)
deriving DecidableEq, Repr

namespace Location

/-- What a text names: a file that exists, else a URL. -/
def classify (text : String) (t : FileTree) : Location :=
  if t.isFile text then .file text
  else if "http://".toList.isPrefixOf text.toList || "https://".toList.isPrefixOf text.toList then
    .url text
  else .unknown text

/-- The source of a picture, which makes use of some services. -/
def source (l : Location) (services : Services := {}) : Except Error Source :=
  match l with
  | file path => .ok (.image path services.decoder)
  | url address =>
      match services.connect address with
      | .error reason => .error (.sourceUnavailable address reason)
      | .ok client => .ok (.remote address client services.decoder)
  | unknown text => .error (.sourceUnavailable text "neither an existing file nor an http(s) URL")

end Location

end Scanout
