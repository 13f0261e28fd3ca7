import DocPipeline.Coordinator.Configure
import DocPipeline.Proofs.Effect
import DocPipeline.Proofs.Json.Comment
import DocPipeline.Proofs.Tree.Follow

namespace DocPipeline

namespace Config

variable {tree : Tree} {path : Path}

-- A manifest that was read is a text that can be read with comments.
theorem readManifest_eq_ok {found : Option Json} (hfile : tree.isFile path = true)
    (h : readManifest tree path = .ok found) :
    ∃ text manifest, tree.readText path = .ok text ∧
      Json.parseCommented? text = some manifest ∧ found = manifest.get? packageField := by
  rw [readManifest, if_pos hfile] at h
  cases htext : tree.readText path with
  | error e =>
    rw [htext] at h
    cases h
  | ok text =>
    rw [htext] at h
    cases hread : Json.parseCommented? text with
    | none =>
      simp only [hread] at h
      cases h
    | some manifest =>
      simp only [hread] at h
      cases h
      exact ⟨text, manifest, rfl, hread, rfl⟩

end Config

namespace Package

-- The manifest that is loaded from a text that can be read with comments.
theorem load_of_parseCommented? {tree : Tree} {path : Path} {text : String} {manifest : Json}
    (format : Json → PackageSummary) (htext : tree.readText path = .ok text)
    (h : Json.parseCommented? text = some manifest) :
    (load tree format path).1 =
      if Json.blankComments text.toList = some text.toList then ⟨manifest, format manifest⟩
      else {} := by
  rw [load, htext]
  dsimp only
  rw [Json.parse?_of_parseCommented? h]
  by_cases hclean : Json.blankComments text.toList = some text.toList
  · rw [if_pos hclean, if_pos hclean]
  · rw [if_neg hclean, if_neg hclean]

end Package

namespace Flow

variable {ε : Type}

theorem loadPackage_fst (path : Path) (c : Coordinator ε) :
    (exec (loadPackage path) c).1 = .ok (Package.load c.world.tree c.format path).1 := by
  have hnotes : ∀ events c, (exec (work (Work.noteAll events) : Flow ε Unit) c).1 = .ok () :=
    fun _ _ => rfl
  rw [loadPackage, exec_bind_of_ok (exec_get c), exec_bind_fst, hnotes]
  rfl

-- Where the search for a configuration reads a manifest without error, a run whose package is the
-- same file gets that manifest if the text has no comments, and else the metadata that stands for
-- a missing one.
theorem loadPackage_of_readManifest {tree : Tree} {path : Path} {found : Option Json}
    (hfile : tree.isFile path = true) (h : Config.readManifest tree path = .ok found)
    {package : Path} {c : Coordinator ε}
    (hsame : c.world.tree.readText package = tree.readText path) :
    ∃ text manifest, tree.readText path = .ok text ∧
      Json.parseCommented? text = some manifest ∧
      found = manifest.get? Config.packageField ∧
      (exec (loadPackage package) c).1 = .ok
        (if Json.blankComments text.toList = some text.toList then ⟨manifest, c.format manifest⟩
        else {}) := by
  obtain ⟨text, manifest, htext, hread, hfound⟩ := Config.readManifest_eq_ok hfile h
  refine ⟨text, manifest, htext, hread, hfound, ?_⟩
  rw [loadPackage_fst, Package.load_of_parseCommented? c.format (hsame.trans htext) hread]

-- A directory with nothing but a manifest.
def manifestTree (text : String) : Tree :=
  ⟨[(["p"], .directory), (["p", "package.json"], .file text.toUTF8)]⟩

def manifestCoordinator (text : String) : Coordinator Unit where
  dir := ⟨"/p"⟩
  registry := .builtin
  world := { tree := manifestTree text, log := ⟨none, []⟩, host := () }

theorem readText_manifestTree (text : String) :
    (manifestTree text).readText ⟨"/p/package.json"⟩ = .ok text := by
  have hfind : (manifestTree text).find ⟨"/p/package.json"⟩ =
      .ok (["p", "package.json"], .file text.toUTF8) := rfl
  exact Tree.readText_of_find hfind

theorem readManifest_manifestTree {text : String} {manifest : Json}
    (h : Json.parseCommented? text = some manifest) :
    Config.readManifest (manifestTree text) ⟨"/p/package.json"⟩ =
      .ok (manifest.get? Config.packageField) := by
  have hfile : (manifestTree text).isFile ⟨"/p/package.json"⟩ = true := rfl
  rw [Config.readManifest, if_pos hfile, readText_manifestTree]
  dsimp only
  rw [h]

-- What reads as a comment in a string is none.
def plainManifest : String :=
  "\x7b\"name\": \"demo\", \"tjsdoc\": \x7b\"source\": \"//lib\"\x7d\x7d"

theorem plain_manifest_loaded : ∃ manifest package,
    Json.parseCommented? plainManifest = some manifest ∧
    (exec (loadPackage ⟨"/p/./package.json"⟩) (manifestCoordinator plainManifest)).1 =
      .ok package ∧
    package.raw = manifest := by
  have hsome : (Json.parseCommented? plainManifest).isSome := by decide +kernel
  have hclean : Json.blankComments plainManifest.toList = some plainManifest.toList := by
    decide +kernel
  obtain ⟨manifest, hread⟩ := Option.isSome_iff_exists.mp hsome
  obtain ⟨text, found, htext, hfound, -, hload⟩ :=
    @loadPackage_of_readManifest Unit (manifestTree plainManifest) ⟨"/p/package.json"⟩ _
      rfl (readManifest_manifestTree hread) ⟨"/p/./package.json"⟩
      (manifestCoordinator plainManifest) rfl
  rw [readText_manifestTree] at htext
  cases htext
  rw [if_pos hclean] at hload
  exact ⟨manifest, _, hread, hload, Option.some.inj (hfound.symm.trans hread)⟩

def commentedManifest : String :=
  "\x7b\"name\": \"demo\", // settings\n\"tjsdoc\": \x7b\"source\": \"./lib\"\x7d\x7d"

-- The configuration is found in the manifest, of which the run knows nothing.
theorem commented_manifest_missed : ∃ manifest config package,
    Json.parseCommented? commentedManifest = some manifest ∧
    Config.readManifest (manifestTree commentedManifest) ⟨"/p/package.json"⟩ =
      .ok (some config) ∧
    (exec (loadPackage ⟨"/p/package.json"⟩) (manifestCoordinator commentedManifest)).1 =
      .ok package ∧
    package.raw ≠ manifest := by
  have hsome : ((Json.parseCommented? commentedManifest).bind
      (·.get? Config.packageField)).isSome := by
    decide +kernel
  have hcomment : Json.blankComments commentedManifest.toList ≠
      some commentedManifest.toList := by
    decide +kernel
  obtain ⟨config, hconfig⟩ := Option.isSome_iff_exists.mp hsome
  obtain ⟨manifest, hread, hget⟩ := Option.bind_eq_some_iff.mp hconfig
  have hload := Package.load_of_parseCommented? PackageSummary.ofManifest
    (readText_manifestTree commentedManifest) hread
  rw [if_neg hcomment] at hload
  refine ⟨manifest, config, {}, hread, ?_, ?_, ?_⟩
  · rw [readManifest_manifestTree hread, hget]
  · rw [loadPackage_fst]
    exact congrArg _ hload
  · rintro rfl
    cases hget

end Flow

end DocPipeline
