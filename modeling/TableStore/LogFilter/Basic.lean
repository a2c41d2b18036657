/-
# Filters on the journal

A filter is a list of directives separated by commas. Of the directives that apply to an event,
the most specific one decides whether it is shown, and of several with the same say the last.
-/

import TableStore.LogFilter.Directive

namespace TableStore

/-- The directives of a filter. -/
abbrev LogFilter :=
  List Directive

namespace LogFilter

/-- Read a filter. Directives that are malformed do not count, and without any directive only
errors are shown. There is no filter if a part of a directive splits a character. -/
def ofText? (text : String) : Option LogFilter :=
  let read := ((text.splitOn ",").filter fun part => part ≠ "").map Directive.ofText
  let directives := read.filterMap Except.toOption
  if read.any fun outcome => outcome matches .error .splitCharacter then none
  else if directives.isEmpty then some [⟨"", .always, Level.error.detail⟩]
  else some directives

/-- Of two directives, the one that counts; the second is the later one. -/
def moreSpecific (first second : Directive) : Directive :=
  if second.yieldsTo first then first else second

/-- Whether an event is shown. -/
def shows (filter : LogFilter) (event : Event) : Bool :=
  match filter.filter (Directive.appliesTo event) with
  | [] => false
  | directive :: rest => event.level.detail ≤ (rest.foldl moreSpecific directive).detail

end LogFilter

end TableStore
