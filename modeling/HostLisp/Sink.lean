/-!
# Output

What a program prints goes to a sink.  A sink may have room for only so many bytes; it takes what
fits of a text and reports whether that was all of it.
-/

namespace HostLisp

/-- Where output goes. -/
structure Sink where
  /-- The bytes that it still takes, if there is a limit. -/
  room : Option Nat
  written : ByteArray

namespace Sink

/-- A sink that takes everything. -/
def unlimited : Sink := ⟨none, .empty⟩

/-- A sink that takes so many bytes in all. -/
def bounded (room : Nat) : Sink := ⟨some room, .empty⟩

/-- Writes as much of a text as fits, and says whether that is all of it. -/
def write (s : Sink) (text : String) : Bool × Sink :=
  let bytes := text.toUTF8
  match s.room with
  | none => (true, ⟨none, s.written ++ bytes⟩)
  | some room =>
    if bytes.size ≤ room then (true, ⟨some (room - bytes.size), s.written ++ bytes⟩)
    else (false, ⟨some 0, s.written ++ bytes.extract 0 room⟩)

/-- The longest text among the first `size`, `size - 1`, ... bytes, giving up after `tries`. -/
def textWithin (bytes : ByteArray) (size : Nat) : Nat → Option String
  | 0 => none
  | tries + 1 =>
    match String.fromUTF8? (bytes.extract 0 size) with
    | some text => some text
    | none => textWithin bytes (size - 1) tries

/-- What was written, as text.  The limit may have cut the last character, of which at most three
bytes are left; a replacement character stands for them. -/
def text (s : Sink) : String :=
  match String.fromUTF8? s.written with
  | some text => text
  | none => (textWithin s.written (s.written.size - 1) 3).getD "" ++ "\uFFFD"

end Sink

end HostLisp
