import LdpScore.Score.Draft

/-!
# Pairing by correlation numbers

Ties, slurs, numbered beams and tuplets are written on the notes and rests that
they join: each of these carries a descriptor with a correlation number and a
phase.  Descriptors wait in order of arrival.  A stop ends the wait of every
descriptor with its number, and together they form a chain.

`offer` decides what becomes of one descriptor, without regard to what a chain is
used for.  `flush` lists the numbers that nothing has stopped.
-/

namespace LdpScore

/-- Where in a relation a descriptor stands. -/
inductive Phase where
  | start
  | continue
  | stop
deriving DecidableEq, Repr, Inhabited

/-- What pairing needs to know about a descriptor. -/
structure Endpoint where
  number : Int
  phase : Phase
  member : Handle
  location : Location
deriving DecidableEq, Repr

/-- Descriptors that can be paired. -/
class Descriptor (Point : Type) where
  endpoint : Point → Endpoint

namespace Pairing

variable {Point : Type} [Descriptor Point]

/-- The correlation number of a descriptor. -/
abbrev number (point : Point) : Int :=
  (Descriptor.endpoint point).number

/-- The phase of a descriptor. -/
abbrev phase (point : Point) : Phase :=
  (Descriptor.endpoint point).phase

/-- The object that carries a descriptor. -/
abbrev member (point : Point) : Handle :=
  (Descriptor.endpoint point).member

/-- Where a descriptor is written. -/
abbrev location (point : Point) : Location :=
  (Descriptor.endpoint point).location

/-- Why a descriptor is rejected. -/
inductive Rejection where
  /-- The same object has a descriptor with that number, written on a line. -/
  | alreadyOnElement (line : Nat)
  /-- A start with that number is waiting, written on a line. -/
  | alreadyStarted (line : Nat)
  | neverStarted
deriving DecidableEq, Repr

def Rejection.problem (relation : PairedRelation) (number : Int) : Rejection → Problem
  | .alreadyOnElement line => .alreadyOnElement relation line
  | .alreadyStarted line => .alreadyStarted relation line
  | .neverStarted => .neverStarted relation number

/-- What becomes of a descriptor. -/
inductive Outcome (Point : Type) where
  /-- It is turned away, and nothing else changes. -/
  | rejected (reason : Rejection)
  /-- It waits, after those that were waiting before. -/
  | waiting
  /-- It ends the wait of all others with its number; together they are a chain. -/
  | complete (chain : List Point)

/-- Whether a descriptor has the same number as another one. -/
def sameNumber (point other : Point) : Bool :=
  number other == number point

/-- Decides what becomes of a descriptor while others are waiting. -/
def offer (pending : List Point) (point : Point) : Outcome Point :=
  match pending.find? fun other => member other == member point && sameNumber point other with
  | some existing => .rejected (.alreadyOnElement (location existing).line)
  | none =>
      match phase point with
      | .start =>
          match pending.find? fun other => phase other == .start && sameNumber point other with
          | some existing => .rejected (.alreadyStarted (location existing).line)
          | none => .waiting
      | .continue => .waiting
      | .stop =>
          let waiting := pending.filter (sameNumber point)
          if waiting.isEmpty then .rejected .neverStarted
          else .complete (waiting ++ [point])

/-- Who waits after a descriptor has been offered. -/
def remaining (pending : List Point) (point : Point) : Outcome Point → List Point
  | .rejected _ => pending
  | .waiting => pending ++ [point]
  | .complete _ => pending.filter fun other => !sameNumber point other

/-- Offers a descriptor.  Returns the chain if it completes one, and who waits
afterwards; a rejection is reported. -/
def add (relation : PairedRelation) (pending : List Point) (point : Point) (draft : Draft) :
    Option (List Point) × List Point × Draft :=
  let outcome := offer pending point
  let rest := remaining pending point outcome
  match outcome with
  | .rejected reason =>
      (none, rest, draft.report (location point) (reason.problem relation (number point)))
  | .waiting => (none, rest, draft)
  | .complete chain => (some chain, rest, draft)

/-- The first waiting descriptor of every number, apart from some numbers. -/
def firstOfEach (reported : List Int) : List Point → List Point
  | [] => []
  | point :: rest =>
      if reported.contains (number point) then firstOfEach reported rest
      else point :: firstOfEach (number point :: reported) rest

/-- The waiting descriptors to report when waiting comes to an end: the first of
every number. -/
def flush (pending : List Point) : List Point :=
  firstOfEach [] pending

/-- Ends all waiting, with one report for every number. -/
def clear (relation : PairedRelation) (pending : List Point) (draft : Draft) : Draft :=
  (flush pending).foldl
    (fun draft point => draft.report (location point) (.neverEnded relation (number point))) draft

end Pairing

end LdpScore
