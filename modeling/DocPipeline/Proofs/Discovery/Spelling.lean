import DocPipeline.Proofs.Discovery.Find
import DocPipeline.Proofs.Path.Outlook

namespace DocPipeline

-- The empty expression is found in every text.
theorem Pattern.Expr.isIn_empty (text : List Char) : Expr.empty.isIn text = true := by
  have hpos : 1 < 2 ^ (text.length + 1) := Nat.one_lt_two_pow (by omega)
  rw [isIn, reach, Nat.one_shiftLeft, bne_iff_ne]
  omega

namespace Candidate

variable {dir dir' : Path}

def keepAll : Filter := ⟨[⟨"", .empty⟩], []⟩

theorem accepts_keepAll (relative : String) : keepAll.accepts relative = true := by
  simp [Filter.accepts, Filter.decide, keepAll, Pattern.firstIn, Pattern.isIn,
    Pattern.Expr.isIn_empty]

theorem select_keepAll (dir : Path) (files : List Path) :
    select dir files keepAll = files.map (ofFile dir) :=
  List.filter_eq_self.mpr fun candidate _ => accepts_keepAll candidate.relative

theorem absolutize_spelling (hn : dir.normalize = dir'.normalize) (file : Path) :
    Path.absolutize dir file = Path.absolutize dir' file := by
  rw [← Path.absolutize_normalize_dir, hn, Path.absolutize_normalize_dir]

-- Two spellings select alike just where they have one outlook. Selecting everything shows each
-- relative path, so it tells others apart.
theorem select_eq_iff (hd : dir.isAbsolute = true) (hd' : dir'.isAbsolute = true)
    (hn : dir.normalize = dir'.normalize) :
    (∀ files filter, select dir files filter = select dir' files filter ∧
      skipEvents dir files filter = skipEvents dir' files filter) ↔ dir.outlook = dir'.outlook := by
  constructor
  · intro h
    refine Path.outlook_eq_of_relativeTo hd hd' fun names hnames => ?_
    have hselect := (h [Path.ofNames names] keepAll).1
    rw [select_keepAll, select_keepAll, List.map_singleton, List.map_singleton] at hselect
    have hfile := congrArg relative (List.singleton_inj.mp hselect)
    simpa only [ofFile, Path.absolutize_ofNames hnames] using hfile
  · intro ho files filter
    have hfile : ofFile dir = ofFile dir' := by
      funext file
      obtain ⟨names, hnames, habsolute⟩ := Path.exists_absolutize hd' file
      rw [ofFile, ofFile, absolutize_spelling hn, habsolute, Path.relativeTo_congr hd hd' ho hnames]
    rw [select, select, skipEvents, skipEvents, hfile]
    exact ⟨rfl, rfl⟩

-- Spellings of one directory give every file the same absolute path. They select alike just where
-- they have one outlook, and as the normal form does where no `..` is in them.
theorem select_spelling (hd : dir.isAbsolute = true) (hd' : dir'.isAbsolute = true)
    (hn : dir.normalize = dir'.normalize) :
    (∀ file, (ofFile dir file).absolute = (ofFile dir' file).absolute) ∧
      ((∀ files filter, select dir files filter = select dir' files filter ∧
        skipEvents dir files filter = skipEvents dir' files filter) ↔
          dir.outlook = dir'.outlook) ∧
      ((∀ files filter, select dir files filter = select dir.normalize files filter ∧
        skipEvents dir files filter = skipEvents dir.normalize files filter) ↔
          ".." ∉ dir.segments) := by
  refine ⟨absolutize_spelling hn, select_eq_iff hd hd' hn, ?_⟩
  have ha := (Path.isAbsolute_normalize dir).trans hd
  rw [select_eq_iff hd ha (Path.normalize_idem dir).symm, Path.outlook_normalize_iff hd]

theorem select_other_spelling :
    (∀ file, (ofFile ⟨"/./w//p/../q/"⟩ file).absolute = (ofFile ⟨"/w/p/.././q"⟩ file).absolute) ∧
      (∀ files filter, select ⟨"/./w//p/../q/"⟩ files filter = select ⟨"/w/p/.././q"⟩ files filter ∧
        skipEvents ⟨"/./w//p/../q/"⟩ files filter = skipEvents ⟨"/w/p/.././q"⟩ files filter) ∧
      ¬ ∀ files filter,
        select ⟨"/./w//p/../q/"⟩ files filter =
            select (Path.mk "/./w//p/../q/").normalize files filter ∧
          skipEvents ⟨"/./w//p/../q/"⟩ files filter =
            skipEvents (Path.mk "/./w//p/../q/").normalize files filter := by
  have h := @select_spelling ⟨"/./w//p/../q/"⟩ ⟨"/w/p/.././q"⟩ (by decide) (by decide) (by decide)
  exact ⟨h.1, h.2.1.mpr (by decide), fun hall => absurd (h.2.2.mp hall) (by decide)⟩

-- Behind a `..` of the spelling the relative path of a file leads to another file, and a pattern
-- that is anchored at the directory misses it.
theorem anchored_pattern_missed :
    (Path.mk "/work/app/../app").normalize = (Path.mk "/work/app").normalize ∧
      ofFile ⟨"/work/app/../app"⟩ ⟨"src/a.js"⟩ = ⟨⟨"/work/app/src/a.js"⟩, "../../src/a.js"⟩ ∧
      Path.absolutize ⟨"/work/app/../app"⟩ ⟨"../../src/a.js"⟩ = ⟨"/src/a.js"⟩ ∧
      ((Filter.compile ["^src/"] []).toOption.map fun filter =>
        (select ⟨"/work/app/../app"⟩ [⟨"src/a.js"⟩] filter,
          select ⟨"/work/app"⟩ [⟨"src/a.js"⟩] filter)) =
        some ([], [⟨⟨"/work/app/src/a.js"⟩, "src/a.js"⟩]) := by
  refine ⟨by decide, by decide, by decide, ?_⟩
  decide +kernel

end Candidate

end DocPipeline
