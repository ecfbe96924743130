import EntityGraph.Pattern.Basic
import EntityGraph.Pattern.CharClass

namespace EntityGraph.Pattern

/-- What flags in a pattern change about the meaning of what follows. -/
structure Flags where
  ignoreCase : Bool
  multiLine : Bool
  dotAll : Bool
  carriage : Bool
  ascii : Bool
  verbose : Bool

namespace Flags

def standard : Flags :=
  ⟨false, false, false, false, false, false⟩

def set? (f : Flags) (letter : Char) (on : Bool) : Option Flags :=
  match letter with
  | 'i' => some { f with ignoreCase := on }
  | 'm' => some { f with multiLine := on }
  | 's' => some { f with dotAll := on }
  | 'R' => some { f with carriage := on }
  | 'u' => some { f with ascii := !on }
  | 'x' => some { f with verbose := on }
  | 'U' => some f
  | _ => none

def fold (f : Flags) (p : CharClass) : CharClass :=
  if f.ignoreCase then p.foldCase f.ascii else p

/-- The complement of a class. Without Unicode it would hold bytes that are no characters. -/
def complement? (f : Flags) (p : CharClass) : Option CharClass :=
  if f.ascii then none else some p.negate

def literal (f : Flags) (c : Char) : Pattern :=
  .char (f.fold fun x => x == c)

def word (f : Flags) : CharClass :=
  if f.ascii then .asciiWord else .word

def digit (f : Flags) : CharClass :=
  if f.ascii then Char.isDigit else .digit

def space (f : Flags) : CharClass :=
  if f.ascii then .asciiSpace else Text.isBlank

def dot? (f : Flags) : Option Pattern :=
  if f.ascii then none
  else if f.dotAll then some (.char fun _ => true)
  else if f.carriage then some (.char fun c => c != '\n' && c != '\r')
  else some (.char fun c => c != '\n')

def start (f : Flags) : Pattern :=
  if !f.multiLine then .assertion fun before _ => before.isNone
  else if f.carriage then .assertion fun before after =>
    before.isNone || before == some '\n' || (before == some '\r' && after != some '\n')
  else .assertion fun before _ => before.isNone || before == some '\n'

def stop (f : Flags) : Pattern :=
  if !f.multiLine then .assertion fun _ after => after.isNone
  else if f.carriage then .assertion fun before after =>
    after.isNone || after == some '\r' || (after == some '\n' && before != some '\r')
  else .assertion fun _ after => after.isNone || after == some '\n'

def wordTest (f : Flags) (holds : Bool → Bool → Bool) : Pattern :=
  .assertion fun before after => holds (before.any f.word) (after.any f.word)

end Flags

end EntityGraph.Pattern
