import RegisterMap.Yaml.Token.Property

/-!
# Directives — lines before a document

`%YAML` gives the version of the language, `%TAG` the meaning of a handle.
-/

namespace RegisterMap.Yaml.Token.Directive

open Input

/-- **number** — a number of at most nine digits. -/
def number (input : Input) : Except Fault (Nat × Input) :=
  let (digits, rest) := input.spanWhile Char.isDigit
  if digits.isEmpty || 9 < digits.length then .error .badDirective
  else .ok (Nat.ofDigitChars 10 digits 0, rest)

/-- **version** — two numbers with a point between them. -/
def version (input : Input) : Except Fault (Token × Input) := do
  let (major, rest) ← number (input.skipWhile isGap)
  if rest.head != '.' then .error .badDirective
  let (minor, rest) ← number rest.tail
  .ok (.versionDirective major minor, rest)

/-- **handle** — a handle and the start of the tags that it abbreviates. -/
def handle (input : Input) : Except Fault (Token × Input) := do
  let (name, rest) ← Property.scanHandle (input.skipWhile isGap)
  if name != ['!'] && !Property.isClosed name then .error .badDirective
  if !isGap rest.head then .error .badDirective
  let (start, rest) ← Property.spell true .text (rest.skipWhile isGap)
  if start.isEmpty || !isSeparation rest.head then .error .badDirective
  .ok (.tagDirective name (Property.untilNull start), rest)

/-- **scan** — the directive after `%` and the end of its line. -/
def scan (input : Input) : Except Fault (Token × Input) := do
  let (name, rest) := input.spanWhile isWordChar
  if !isSeparation rest.head then .error .badDirective
  let (token, rest) ←
    if name == "YAML".toList then version rest
    else if name == "TAG".toList then handle rest
    else .error .badDirective
  let rest := rest.skipLineRest
  if !isBreakOrEnd rest.head then .error .textAfterHeader
  .ok (token, if isBreak rest.head then rest.tail else rest)

end RegisterMap.Yaml.Token.Directive
