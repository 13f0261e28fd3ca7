import DocPipeline.Tree.Basic

namespace DocPipeline

def Entry.isDirectory : Entry → Bool
  | directory => true
  | _ => false

-- What changed from one tree to another: the entries that are new or different, and those that are
-- gone. A directory in place of a file, or a file in place of a directory, is a new entry, and the
-- old one is gone. What is written is in an order in which it can be written, and what is gone in
-- an order in which it can be removed: a directory comes before and after what is in it.
structure Tree.Changes where
  written : List (Location × Entry)
  removed : List (Location × Entry)

namespace Tree

def keeps (tree : Tree) (old : Location × Entry) : Bool :=
  (tree.get? old.1).any fun new => new.isDirectory == old.2.isDirectory

def inOrder (entries : List (Location × Entry)) : List (Location × Entry) :=
  entries.mergeSort fun e f => comesBefore e.1 f.1

def changesTo (before after : Tree) : Changes :=
  { written := inOrder (after.entries.filter fun e => before.get? e.1 != some e.2)
    removed := (inOrder (before.entries.filter fun e => !after.keeps e)).reverse }

end Tree

end DocPipeline
