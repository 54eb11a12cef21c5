import LocalNet.Log.Directive

/-!
Filters for what is logged. Of the directives whose target begins the target of an event, the
longest decides; besides, a directive that asks for a span lets pass what happens in it.
-/

namespace LocalNet.Log

structure Filter where
  directives : List Directive
  deriving DecidableEq, Repr

namespace Filter

/-- Without any directive, errors pass. -/
def ofDirectives (directives : List Directive) : Filter :=
  if directives.isEmpty then ⟨[{ verbosity := 1 }]⟩ else ⟨directives⟩

def splitCommas : List Char → List (List Char)
  | [] => [[]]
  | char :: rest =>
    if char = ',' then [] :: splitCommas rest
    else
      match splitCommas rest with
      | [] => [[char]]
      | part :: others => (char :: part) :: others

def parts (text : String) : List String :=
  ((splitCommas text.toList).filter (!·.isEmpty)).map String.ofList

/-- Parts that are no directives are passed over. -/
def ofText (text : String) : Filter :=
  ofDirectives ((parts text).filterMap Directive.ofText)

def prefer (best : Option Directive) (directive : Directive) : Option Directive :=
  match best with
  | none => some directive
  | some other => if other.yieldsTo directive then some directive else best

/-- The most special directive about a target, and of two alike the later. -/
def deciding? (directives : List Directive) (target : String) : Option Directive :=
  (directives.filter (·.coversTarget target)).foldl prefer none

def lets (directive? : Option Directive) (level : Level) : Bool :=
  directive?.any (level.verbosity ≤ ·.verbosity)

/-- An event has no field but its message. -/
def isAboutEvents (directive : Directive) : Bool :=
  directive.isStatic && directive.field.all (·.name = "message")

/-- No span above the most that any directive lets pass is ever made. A directive that asks for a
value might let everything pass. -/
def ceiling (filter : Filter) : Nat :=
  filter.directives.foldl
    (fun most directive =>
      if directive.field.any (·.value.isSome) then fullVerbosity
      else max most directive.verbosity) 0

def isMade (filter : Filter) (span : Span) : Bool :=
  span.level.verbosity ≤ filter.ceiling

/-- The directives that ask for spans. A later one takes the place of one that asks for the same. -/
def dynamics (filter : Filter) : List Directive :=
  (filter.directives.filter (·.isDynamic)).foldl
    (fun kept directive => kept.filter (!·.asksAlike directive) ++ [directive]) []

/-- A span that is not enabled is as if it were not there. -/
def enablesSpan (filter : Filter) (span : Span) : Bool :=
  filter.isMade span &&
    (filter.dynamics.any (·.asksFor span) ||
      lets (deciding? (filter.directives.filter (·.isStatic)) span.target) span.level)

def enables (filter : Filter) (event : Event) : Bool :=
  lets (deciding? (filter.directives.filter isAboutEvents) event.target) event.level ||
    filter.dynamics.any fun directive =>
      event.level.verbosity ≤ directive.verbosity &&
        event.spans.any fun span => filter.isMade span && directive.holdsIn span

end Filter

end LocalNet.Log
