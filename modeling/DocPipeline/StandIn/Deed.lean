import DocPipeline.Failure.Kind
import DocPipeline.StandIn.Ledger

namespace DocPipeline.StandIn

-- What stand-in plugins do at a hook. A deed may have something to tell, which is entered into the
-- ledger.
abbrev Deed (π α : Type) := Conduct Ledger π α

abbrev Telling := Option Json

namespace Deed

variable {π : Type}

def tell (shown : π → Store → Json) : Deed π Telling := do
  return some (shown (← Conduct.payload) (← Conduct.store))

def change (f : π → π) : Deed π Telling := do
  Conduct.modifyPayload f
  return none

def changeTree (f : Tree → Tree) : Deed π Telling := do
  Conduct.setTree (f (← Conduct.tree)) (.done none)

def editStore (edit : StoreEdit) : Deed π Telling := Conduct.editStore edit (.done none)

-- Shows something about the store, if the plugin knows it.
def tellOfStore (page : Nat) (key : String) (shown : Store → Json) : Deed π Telling := do
  let known := (← Ledger.page page).knowsStore
  let store ← Conduct.store
  return some (.object [(key, if known then shown store else .null)])

-- Parses a file again with the reparser on the page, if there is one.
def reparse (page : Nat) (path : Path) : Deed π Telling := do
  match (← Ledger.page page).reparser with
  | none => return none
  | some reparser =>
    Conduct.reparse reparser path fun result =>
      .done <| some <| Json.ofResult <| result.map fun records =>
        .object [("reparsed", .strings (records.map Record.label))]

def send (handle : Handle) (signal : Signal) : Deed π Telling :=
  Conduct.send handle signal fun result => do
    Conduct.ofExcept result
    return none

-- Sends through the handle on the page, if there is one, and shows how that went.
def sendKept (page : Nat) (signal : Signal) : Deed π Telling := do
  match (← Ledger.page page).handle with
  | none => return none
  | some handle =>
    Conduct.send handle signal fun result => .accepts handle fun accepted =>
      .done <| some <| Json.ofResult <| result.map fun () =>
        .object [("sent", .bool true), ("closed", .bool !accepted)]

-- Drops the handle on the page.
def dropKept (page : Nat) : Deed π Telling := do
  match (← Ledger.page page).handle with
  | none => return none
  | some handle =>
    Ledger.turn page ({ · with handle := none })
    Conduct.drop handle (.done none)

-- Keeps a copy of a handle on the page, in place of the one there.
def keep (page : Nat) (handle : Handle) : Deed π Telling :=
  Conduct.copy handle fun kept => do
    let _ ← dropKept page
    Ledger.turn page ({ · with handle := some kept })
    return none

end Deed

-- A plugin that has a page. What it does may depend on how often it was called at the hook before.
def plugin (page : Nat) (name : String)
    (deeds : {h : Hook} → Occasion h → Nat → List (Deed h.Payload Telling)) : Plugin Ledger :=
  .custom name fun {h} occasion => do
    Ledger.enter ⟨name, h.name, none⟩
    let times := (← Ledger.page page).times h
    Ledger.turn page (·.after occasion)
    (deeds occasion times).forM fun deed => do
      match (← deed) with
      | none => return
      | some shown => Ledger.enter ⟨name, h.name, some shown⟩

end DocPipeline.StandIn
