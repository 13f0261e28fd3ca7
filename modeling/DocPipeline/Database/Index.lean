import DocPipeline.Database.Basic

namespace DocPipeline.Database

-- Enters a position under a key, once.
def enter (index : Dict (List Nat)) (position : Nat) (key : String) : Dict (List Nat) :=
  let positions := (index.get? key).getD []
  if positions.getLast? = some position then index else index.insert key (positions ++ [position])

def recordKeys (record : Record) : List String :=
  ["name", "longname"].filterMap record.textField?

def indexFrom (index : Dict (List Nat)) (position : Nat) : List Record → Dict (List Nat)
  | [] => index
  | record :: rest =>
    indexFrom ((recordKeys record).foldl (fun i key => enter i position key) index) (position + 1)
      rest

-- Every record is entered under its name and under its long name.
def reindex (db : Database) : Database := { db with index := indexFrom .empty 0 db.records }

end DocPipeline.Database
