import LocalePages.Proofs.Batches
import LocalePages.Proofs.FoundPages
import LocalePages.Proofs.Logs
import LocalePages.Proofs.SourceCopies

/-!
# Sources that are given to the tool

Each batch of sources is one call of the tool, whatever has become of the calls before it (`Extraction.exists_collectBatches`). The
batches together are the sources that can be read, each once and in order, and the copy of each of them is in the folder where the tool
is called (`Extraction.collectSources_spec`).
-/

namespace LocalePages

namespace Extraction

variable {s : RunSetting} {m : CatalogModule} {language : SourceLanguage} {scratch : Text} {r : Run}

/-! ## One call for each batch -/

namespace OptionLikeSourceWitness

/-- A module whose first source looks like an option, with a source that is no text and one in a folder. -/
def disk : Disk :=
  ⟨[(["shop"], .folder true), (["shop", "-a.php"], .file (.text "<?php\n\tf();\n") false),
    (["shop", "b.php"], .file (.bytes [255]) false), (["shop", "c.php"], .file (.text "<?php\n  g();\n") false),
    (["shop", "lib"], .folder true), (["shop", "lib", "d.php"], .file (.text "<?php\n") false)], []⟩

/-- A tool that knows no such option, and finds no texts. -/
def tools : Toolbox :=
  ⟨fun _ _ => true, fun d c =>
    (.ok (if c.args.any fun arg => Text.startsWith arg "-a." then ⟨some 1, [], "xgettext: invalid option\n"⟩ else ⟨some 0, [], []⟩), d)⟩

def czech : Locale := ⟨"cs", none, "CZ", [], none⟩

/-- A setting with two sources for a call. -/
def setting : RunSetting :=
  ⟨tools, { Config.default with batchSize := 2 }, "/", ⟨[czech], 0, Locale.standard, by decide⟩, []⟩

/-- The module. -/
def module : CatalogModule := ⟨"shop", "/shop", "/shop/locale", "/shop/locale/messages.pot", [czech]⟩

/-- The start of the run. -/
def start : Run := .start disk .empty

theorem isTree_disk : disk.IsTree := by
  refine Disk.IsTree.of_entries (by decide) ?_
  decide

theorem filesOf_start : start.filesOf setting module SourceLanguage.php.extension =
    ["/shop/-a.php", "/shop/b.php", "/shop/c.php", "/shop/lib/d.php"] := by
  unfold Run.filesOf Disk.findFiles Disk.waysIn
  rw [Disk.files_eq_insertionSort]
  decide +kernel

end OptionLikeSourceWitness

end Extraction

end LocalePages
