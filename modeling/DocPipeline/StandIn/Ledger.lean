import DocPipeline.Plugin.Dispatcher

namespace DocPipeline.StandIn

structure Entry where
  name : String
  verb : String
  detail : Option Json := none
deriving Inhabited

def Entry.toJson (entry : Entry) : Json :=
  .array ([.string entry.name, .string entry.verb] ++ entry.detail.toList)

structure Page where
  -- The hooks at which the plugin was called, the latest first.
  seen : List Hook := []
  reparser : Option Reparser := none
  handle : Option Handle := none
deriving Inhabited

namespace Page

-- How often the plugin was called at a hook.
def times (page : Page) (hook : Hook) : Nat := page.seen.count hook

-- A plugin knows the store from its first pass on.
def knowsStore (page : Page) : Bool := page.seen.contains .start

-- The page after a call. Occasions that bring a reparser leave it there.
def after (page : Page) {h : Hook} (occasion : Occasion h) : Page :=
  let page := { page with seen := h :: page.seen }
  match occasion with
  | .complete _ _ reparser => { page with reparser := some reparser }
  | .regenerate _ reparser => { page with reparser := some reparser }
  | _ => page

end Page

-- Stand-ins are collaborators that do what they are told to, for trying a set-up without writing
-- collaborators of one's own. Every call of a stand-in is an entry of one ledger, and every
-- stand-in plugin has a page there for what it remembers between its calls.
structure Ledger where
  entries : List Entry := []
  pages : List Page := []
deriving Inhabited

namespace Ledger

variable {π : Type}

def toJson (ledger : Ledger) : Json := .array (ledger.entries.map Entry.toJson)

def enter (entry : Entry) : Conduct Ledger π Unit :=
  .modifyHost fun ledger => { ledger with entries := ledger.entries ++ [entry] }

def page (number : Nat) : Conduct Ledger π Page := do
  return ((← Conduct.host).pages[number]?).getD {}

def turn (number : Nat) (change : Page → Page) : Conduct Ledger π Unit :=
  .modifyHost fun ledger => { ledger with pages := ledger.pages.modify number change }

-- Adds a page, and gives its number.
def addPage : Conduct Ledger π Nat := do
  let ledger ← Conduct.host
  .remember { ledger with pages := ledger.pages ++ [{}] } (.done ledger.pages.length)

-- What was entered since the last time. It is no longer in the ledger after that.
def takeEntries : Work Ledger (List Entry) :=
  modifyGet fun world =>
    (world.host.entries, { world with host := { world.host with entries := [] } })

end Ledger

end DocPipeline.StandIn
