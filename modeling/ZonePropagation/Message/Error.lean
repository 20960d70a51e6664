/-!
Why an octet string is no DNS message, and why a message has no octet string.
-/

namespace ZonePropagation

/-- The causes on which reading or writing a message fails. -/
inductive MessageError where
  | header
  | label
  | questionSection
  | answerSection
  | authoritySection
  | additionalSection
  | truncated
  | compressionLoop
  | fieldTooWide
deriving DecidableEq, Repr

def MessageError.message : MessageError → String
  | .header => "Invalid DNS header"
  | .label => "Invalid DNS label"
  | .questionSection => "Invalid question section"
  | .answerSection => "Invalid answer section"
  | .authoritySection => "Invalid authority section"
  | .additionalSection => "Invalid additional section"
  | .truncated => "Message truncated"
  | .compressionLoop => "Name compression loop"
  | .fieldTooWide => "Invalid bit stream: excessive value for bits written"

end ZonePropagation
