import Machining.Block
import Machining.Decimal.Reading
import Machining.Diagnostic
import Machining.Modal

namespace Machining.Block
variable {α : Type}

/-- The groups a block may take at most one code of. -/
def exclusiveGroups : List (String × List Number) :=
  ModalGroup.all.map (fun g => (g.name, g.codes)) ++ [("non_modal", nonModalCodes)]

/-- The block's codes among `codes`, in the order they were named. -/
def activeCodes (b : Block α) (codes : List Number) : List Number := b.g.keys.filter codes.contains

/-- Whether a token is a G word for one of `codes`. -/
def namesCode (codes : List Number) (t : Token) : Bool :=
  t.kind = .word .g && match Decimal.ofText? t.value with
    | some x => codes.contains (.float x)
    | none => false

/-- The report on several codes of one group reaches from the first of their words to the last. -/
def groupReport (b : Block α) (name : String) (active : List Number) : List Diagnostic :=
  let words := b.tokens.filter (namesCode active)
  match words.head?, words.getLast? with
  | some first, some last =>
    [Diagnostic.error b.line first.start last.stop .semantic
      s!"Multiple codes from {name} modal group: {Number.listText active}"]
  | _, _ => []

def groupReports (b : Block α) : List Diagnostic :=
  exclusiveGroups.flatMap fun (name, codes) =>
    let active := b.activeCodes codes
    if 1 < active.length then b.groupReport name active else []

def groupsAgree (b : Block α) : Bool :=
  exclusiveGroups.all fun (_, codes) => (b.activeCodes codes).length ≤ 1

/-- Whether a non-modal code and a motion code both claim the axes. -/
def axesContested (b : Block α) : Bool :=
  let single := b.activeCodes nonModalCodes
  let motion := b.activeCodes ModalGroup.motion.codes
  !single.isEmpty && !motion.isEmpty && b.hasAxes &&
    !(single.length = 1 && single.contains (.int 53))

def contestReports (b : Block α) : List Diagnostic :=
  if b.axesContested then
    let single := Number.listText (b.activeCodes nonModalCodes)
    let motion := Number.listText (b.activeCodes ModalGroup.motion.codes)
    [Diagnostic.onLine b.line .semantic
      s!"Group 0 code {single} conflicts with motion code {motion} when axis words present"]
  else []

def isValid (b : Block α) : Bool := b.groupsAgree && !b.axesContested

def reports (b : Block α) : List Diagnostic := b.groupReports ++ b.contestReports

end Machining.Block
