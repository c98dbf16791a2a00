import ShiftReduce.Tables

namespace ShiftReduce.Tables

def nameWidth : Nat := 12

def padded (name : String) : String :=
  name ++ String.ofList (List.replicate (nameWidth - name.length) ' ')

/-- The line of the rule at an index. A rule number has sixteen bits, and the text is that of
the rule which the low sixteen bits of the index name. -/
def ruleLine (t : Tables) (index : Nat) (r : Rule) : String :=
  let shown := t.rules[index.toUInt16.toNat]?.getD r
  s!"rule {index}: {t.ruleText shown}\n"

def cellLine (name : String) (c : Cell) : String :=
  s!"    {padded name} {(Action.decode c).render}\n"

def gotoLine (name : String) (target : StateId) : String :=
  s!"    {padded name} goto {target.id.toNat}\n"

def stateLines (t : Tables) (index : Nat) (s : State) : List String :=
  s!"state {index}:\n"
    :: s.actions.entries.map (fun p => cellLine (t.terminalName p.1) p.2)
    ++ cellLine "$default" s.fallback
    :: s.gotos.entries.map (fun p => gotoLine (t.nonterminalName p.1) p.2)

def listingLines (t : Tables) : List String :=
  t.rules.toList.zipIdx.map (fun p => t.ruleLine p.2 p.1)
    ++ t.states.toList.zipIdx.flatMap (fun p => t.stateLines p.2 p.1)

def listing (t : Tables) : String := String.join t.listingLines

end ShiftReduce.Tables
