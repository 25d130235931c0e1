import SpecEngine.Assertion
import SpecEngine.Outline.Keyword
import SpecEngine.Table

/-!
# Suites

A suite has specs in their order and at most one body per hook; a catalogue has suites by
description, in the order in which they were first named.

* `Spec`: a description, a body and the assertions made so far;
* `Suite`: specs and hooks;
* `Catalogue`: suites; `merge` adds the suites of one catalogue to another.
-/

namespace SpecEngine

/-- A spec, and the assertions that running it made. -/
structure Spec where
  description : String
  body : String
  suite : String := ""
  assertions : List Assertion := []

namespace Spec

/-- The first assertion that did not pass. -/
def failure? (s : Spec) : Option Assertion :=
  s.assertions.find? fun a => !a.passed

/-- A spec without assertions is still to be written. -/
def isPending (s : Spec) : Bool :=
  s.assertions.isEmpty

/-- Whether there are assertions and all of them passed. -/
def passed (s : Spec) : Bool :=
  !s.isPending && s.failure?.isNone

/-- Adds assertions in the order in which they were made. -/
def record (s : Spec) (log : List Assertion) : Spec :=
  { s with assertions := s.assertions ++ log }

end Spec

/-- A suite, and whether it was run. -/
structure Suite where
  description : String
  specs : List Spec := []
  hooks : Table Hook String := []
  ran : Bool := false

namespace Suite

/-- Adds a spec, which from then on belongs to the suite. -/
def addSpec (s : Suite) (spec : Spec) : Suite :=
  { s with specs := s.specs ++ [{ spec with suite := s.description }] }

/-- Gives a hook its body; a later body takes the place of an earlier one. -/
def setHook (s : Suite) (h : Hook) (body : String) : Suite :=
  { s with hooks := Table.set s.hooks h body }

/-- The body of a hook, if the suite has it. -/
def hook? (s : Suite) (h : Hook) : Option String :=
  Table.find? s.hooks h

/-- Adds the specs and the hooks of another suite. -/
def absorb (s t : Suite) : Suite :=
  t.hooks.foldl (fun s e => s.setHook e.1 e.2) (t.specs.foldl addSpec s)

end Suite

/-- Suites by description. -/
abbrev Catalogue := Table String Suite

namespace Catalogue

/-- Changes the suite with a description, which is made if there is none. -/
def update (c : Catalogue) (description : String) (f : Suite → Suite) : Catalogue :=
  Table.upsert c description fun s => f (s.getD { description })

/-- Makes sure that there is a suite with a description. -/
def insert (c : Catalogue) (description : String) : Catalogue :=
  c.update description id

/-- The suite with a description. -/
def suite? (c : Catalogue) (description : String) : Option Suite :=
  Table.find? c description

/-- The suites in their order. -/
def suites (c : Catalogue) : List Suite :=
  c.map Prod.snd

/-- Adds the suites of `d`: known ones are extended in their places, new ones follow. -/
def merge (c d : Catalogue) : Catalogue :=
  d.foldl (fun c e => c.update e.1 fun s => s.absorb e.2) c

end Catalogue

end SpecEngine
