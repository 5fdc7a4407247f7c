import CloudProvider.Decimal.Binary64
import CloudProvider.Text.Blank
import CloudProvider.Text.Quoted
import CloudProvider.Time.Moment

/-! Events that happen while a request is worked on, and the trail of them: a text with the moment,
the level and the contents of every event that is loud enough. -/

namespace CloudProvider

open Time (Moment)

/-- The louder comes first. -/
inductive Level
  | error
  | warn
  | info
  | debug
  | trace
deriving DecidableEq, Repr

namespace Level

def name : Level → String
  | .error => "ERROR"
  | .warn => "WARN"
  | .info => "INFO"
  | .debug => "DEBUG"
  | .trace => "TRACE"

def isRecorded : Level → Bool
  | .error | .warn | .info => true
  | .debug | .trace => false

end Level

inductive Detail
  | text (s : String)
  | quoted (s : String)
  | integer (i : Int)
  | bool (b : Bool)
  | fraction (x : Decimal.Binary64)

namespace Detail

/-- Positional up to 16 digits before the point and 4 zeros after it. -/
def layout : Decimal.Layout := ⟨-4, 15, false⟩

def render : Detail → String
  | .text s => s
  | .quoted s => Text.quoted s
  | .integer i => toString i
  | .bool b => toString b
  | .fraction x => x.render layout

end Detail

structure Event where
  level : Level
  message : String
  details : List (String × Detail)

namespace Event

def info (message : String) (details : List (String × Detail) := []) : Event :=
  ⟨.info, message, details⟩

def warn (message : String) (details : List (String × Detail) := []) : Event :=
  ⟨.warn, message, details⟩

def error (message : String) (details : List (String × Detail) := []) : Event :=
  ⟨.error, message, details⟩

def debug (message : String) (details : List (String × Detail) := []) : Event :=
  ⟨.debug, message, details⟩

def detailsText (e : Event) : String :=
  String.join (e.details.map fun (name, d) => " " ++ name ++ "=" ++ d.render)

/-- The message and the details behind it. Without a message the first detail begins the line. -/
def line (e : Event) : String :=
  if e.details.isEmpty then e.message
  else if e.message.isEmpty then Text.trimStart e.detailsText
  else e.message ++ e.detailsText

end Event

structure Entry where
  moment : Moment
  event : Event

def Entry.text (e : Entry) : String :=
  e.moment.stamp ++ " " ++ e.event.level.name ++ " " ++ e.event.line ++ "\n"

abbrev Trail := List Entry

def Trail.text (t : Trail) : String :=
  String.join ((t.filter (·.event.level.isRecorded)).map Entry.text)

end CloudProvider
