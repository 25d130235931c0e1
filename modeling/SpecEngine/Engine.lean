import SpecEngine.Matcher.Standard
import SpecEngine.Suite

/-!
# Judging assertions

An engine has a registry of matchers and the counts of a run.  It resolves the matcher of an
assertion, takes both values out of their boxes, and makes the message: the one that the rule
brings, or a sentence with the words of the matcher's name.

* `Registry.evaluate`: an assertion;
* `Registry.judge`: what evaluates the assertions of specs, `Judge.ofHook` those of hooks.
-/

namespace SpecEngine

/-- The sentence that tells what an assertion expects. -/
def Assertion.sentence (matcher : String) (actual expected : Value) (negate : Bool) : String :=
  let words := matcher.toList.map fun c => if c = '_' then ' ' else c
  let text := "expected " ++ actual.printed ++ " to " ++ (if negate then "not " else "") ++
    String.ofList words ++ " " ++ expected.printed
  String.ofList (Text.trimEnd text.toList)

/-- Evaluates an assertion. -/
def Registry.evaluate (r : Registry) (matcher : String) (actual expected : Value)
    (negate : Bool) : Except MatcherError Assertion :=
  match r.resolve matcher with
  | .error e => .error e
  | .ok rule =>
    let actual := actual.unboxed
    let expected := expected.unboxed
    .ok {
      matcher, actual, expected, negate
      passed := rule.holds expected actual != negate
      message := (rule.message? expected actual negate).getD
        (Assertion.sentence matcher actual expected negate) }

/-- Judges the assertions of specs. -/
def Registry.judge (r : Registry) : Judge := fun matcher actual expected negate =>
  match r.evaluate matcher actual expected negate with
  | .ok a => .ok a
  | .error e => .error (.matcher e)

/-- Hooks may not assert. -/
def Judge.ofHook (h : Hook) : Judge := fun _ _ _ _ => .error (.assertionInHook h)

/-- A registry and the counts of a run. -/
structure Engine where
  registry : Registry
  stats : Stats := {}

namespace Engine

/-- Counts the outcomes of assertions. -/
def count (e : Engine) (log : List Assertion) : Engine :=
  { e with stats := e.stats.countAssertions log }

/-- Counts a finished spec with all its assertions. -/
def finish (e : Engine) (s : Spec) : Engine :=
  { e with stats := e.stats.countSpec s.assertions.length }

end Engine

end SpecEngine
