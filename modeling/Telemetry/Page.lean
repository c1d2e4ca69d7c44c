import Telemetry.Service
import Telemetry.Text.Parts

/-!
# The index page

The page lists every sample on a line of its own, gauges and counters together,
in ascending order of the lines.  What a line says is escaped, so that no name
can change the structure of the page.  The lines take the place of a marker in a
template; a marker in a name is left alone.
-/

namespace Telemetry.Page

def escapeChar (c : Char) : List Char :=
  if c = '&' then "&amp;".toList
  else if c = '<' then "&lt;".toList
  else if c = '>' then "&gt;".toList
  else if c = '"' then "&quot;".toList
  else if c = '\'' then "&#39;".toList
  else [c]

def escape (s : String) : String :=
  String.ofList (s.toList.flatMap escapeChar)

/-- The page up to its list of samples. -/
def opening : String :=
  "<!DOCTYPE html>\n<html lang=\"en\">\n<head>\n<meta charset=\"utf-8\">\n"
    ++ "<title>vitals</title>\n</head>\n<body>\n<h1>Metrics</h1>\n<ul>\n"

def closing : String := "</ul>\n</body>\n</html>\n"

/-- What the list of samples takes the place of. -/
def marker : String := "\x7b\x7bitems\x7d\x7d"

def template : String := opening ++ marker ++ closing

theorem replaceAll_marker (text : String) :
    Text.replaceAll marker text template = opening ++ text ++ closing := by
  have hfirst : marker.toList.head? = some '\x7b' := rfl
  have hopening : '\x7b' ∉ opening.toList := by decide +kernel
  have hclosing : '\x7b' ∉ closing.toList := by decide +kernel
  unfold Text.replaceAll template
  rw [Text.parts_append hfirst hopening, Text.parts_of_notMem hfirst hclosing]
  rfl

def line (name value : String) : String := s!"{name}: {value}"

/-- The lines of all samples in ascending order. -/
def lines (gauges : List (String × Binary64))
    (counters : List (String × Int64)) : List String :=
  let unordered := gauges.map (fun g => line g.1 g.2.toText)
    ++ counters.map (fun c => line c.1 (Text.int64Text c.2))
  unordered.mergeSort fun a b => decide (a ≤ b)

def item (s : String) : String := s!"<li>{escape s}</li>\n"

def items (ls : List String) : String := String.join (ls.map item)

def ofSamples (gauges : List (String × Binary64))
    (counters : List (String × Int64)) : String :=
  Text.replaceAll marker (items (lines gauges counters)) template

def render {σ : Type} [SampleStore σ] : ServiceM σ String := do
  let gauges ← Service.ask SampleStore.gauges
  let counters ← Service.ask SampleStore.counters
  return ofSamples gauges counters

end Telemetry.Page
