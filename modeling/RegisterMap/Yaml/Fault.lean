/-!
# Fault — why a text is no YAML

One constructor for each rule of the syntax that a text can break.
-/

namespace RegisterMap.Yaml

/-- **Fault** — the rule that a text breaks first. -/
inductive Fault where
  /-- A character that no text may contain. -/
  | forbiddenCharacter
  /-- A character that starts no token. -/
  | strayCharacter
  /-- A key that has to be on one line, followed by a colon. -/
  | missingColon
  /-- A `-` where no block sequence can start. -/
  | misplacedEntry
  /-- A `?` where no block mapping can start. -/
  | misplacedKey
  /-- A `:` where no block mapping can start. -/
  | misplacedValue
  /-- A tab that takes part in indentation. -/
  | tabIndentation
  /-- A `:` inside a plain scalar right before a flow indicator. -/
  | colonInFlow
  /-- A quoted scalar without its closing quote. -/
  | unclosedQuote
  /-- A document indicator inside a quoted scalar. -/
  | indicatorInQuote
  /-- A backslash before a character that it does not escape. -/
  | unknownEscape
  /-- A numbered escape without enough hexadecimal digits, or of no character. -/
  | badEscapeNumber
  /-- A block scalar indented by zero. -/
  | zeroIndentation
  /-- Text after a block scalar indicator or a directive on its line. -/
  | textAfterHeader
  /-- An anchor or alias without a name, or followed by something else. -/
  | badAnchor
  /-- A tag that is not spelled as one. -/
  | badTag
  /-- A percent escape that is not two hexadecimal digits of a UTF-8 sequence. -/
  | badPercentEscape
  /-- A directive that is neither `YAML` nor `TAG`, or has bad parameters. -/
  | badDirective
  /-- A second `YAML` directive, or a second `TAG` directive of one handle. -/
  | repeatedDirective
  /-- A version other than 1.1 and 1.2. -/
  | unknownVersion
  /-- A directive that no document follows. -/
  | missingDocumentStart
  /-- A tag with a handle that no directive defines. -/
  | undefinedHandle
  /-- A place where a node has to stand and does not. -/
  | missingNode
  /-- A block sequence with something that is no entry. -/
  | missingEntry
  /-- A block mapping with something that is no key. -/
  | missingKey
  /-- A flow collection without a comma or its closing bracket. -/
  | unclosedFlow
  /-- An alias of an anchor that has not been set. -/
  | unknownAnchor
  deriving DecidableEq, Repr

end RegisterMap.Yaml
