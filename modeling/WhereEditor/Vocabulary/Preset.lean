import WhereEditor.Text.Character

/-!
Named time windows that end now. A name is recognised by its letters and digits alone, so
spaces, hyphens and other marks in it do not matter.
-/

namespace WhereEditor

inductive Preset where
  | lastHour
  | last24Hours
  | last7Days
  | last31Days
  | last365Days
  | currentMonth
  | currentYear
  deriving DecidableEq, Inhabited

namespace Preset

def all : List Preset :=
  [lastHour, last24Hours, last7Days, last31Days, last365Days, currentMonth, currentYear]

def label : Preset → String
  | lastHour => "Last hour"
  | last24Hours => "Last 24 hours"
  | last7Days => "Last 7 days"
  | last31Days => "Last 31 days"
  | last365Days => "Last 365 days"
  | currentMonth => "Current month"
  | currentYear => "Current year"

def compact (name : String) : List Char :=
  (name.toList.filter Text.isAlphanumeric).map Char.toLower

def ofText? (text : String) : Option Preset :=
  all.find? fun preset => compact preset.label == compact text

end Preset

end WhereEditor
