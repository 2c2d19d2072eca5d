/-!
# Line breaking classes

The class of a character decides at which sides of it a line may end.
-/

set_option autoImplicit false

namespace AmbientScope

/-- What a character is to a line. -/
inductive LineClass where
  /-- A line or a paragraph always ends after it. -/
  | hardBreak
  | carriageReturn
  | lineFeed
  | space
  /-- An invisible place where a line may end. -/
  | zeroWidthSpace
  /-- Forbids a break at either side. -/
  | wordJoiner
  /-- Forbids a break after it and belongs to the character before. -/
  | joiner
  /-- Belongs to the character before it. -/
  | combining
  /-- A space or a hyphen that does not break. -/
  | glue
  | breakAfter
  | breakBefore
  /-- A long dash. -/
  | breakAround
  | hyphen
  /-- Stands for an object. -/
  | contingent
  | closing
  | closingParenthesis
  | exclamation
  /-- Leaders, such as an ellipsis. -/
  | inseparable
  /-- Does not begin a line, like small kana. -/
  | nonStarter
  | opening
  /-- A quotation mark that may open as well as close. -/
  | quotation
  /-- Separates numbers, like a comma. -/
  | numberSeparator
  | numeric
  /-- Follows a number, like a percent sign. -/
  | afterNumber
  /-- Precedes a number, like a currency sign. -/
  | beforeNumber
  | slash
  | alphabetic
  | hebrew
  | ideographic
  | emojiBase
  | emojiModifier
  /-- One half of a flag. -/
  | regional
  | leadingJamo
  | vowelJamo
  | trailingJamo
  /-- A Korean syllable without a final consonant. -/
  | openSyllable
  /-- A Korean syllable with a final consonant. -/
  | closedSyllable
  deriving DecidableEq, Inhabited

end AmbientScope
