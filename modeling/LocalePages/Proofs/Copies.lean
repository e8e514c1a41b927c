import LocalePages.Proofs.PlainPages

/-!
# Copies

A document is copied by writing it and reading what was written, which is not the same document for every page
(`Document.copy_parse_false`). It is for plain documents (`Document.copy_of_isPlain`), and so nothing of a plain page is lost when it
is copied (`Document.copy_parse_of_isPlain`).
-/

namespace LocalePages

namespace Document

/-- Copies do not have all that their documents have: the first line feed in preformatted text is lost when it is read again. -/
theorem copy_parse_false : ¬∀ page : Text, (parse page).copy.toHtml = (parse page).toHtml ∧
    ∀ mark : Text, (parse page).copy.annotated mark = (parse page).annotated mark := by
  intro h
  have hwritten := (h "<pre>\n\nfoo</pre>").1
  revert hwritten
  decide +kernel

/-- A plain document is its own copy. -/
theorem copy_of_isPlain (d : Document) (h : d.isPlain = true) : d.copy = d := by
  have hnodes := d.nodes_parse_toHtml h
  cases d
  exact congrArg (Document.mk · _) hnodes

/-- Copying a page whose document is plain loses nothing: the copy is written as the document is, and has the same annotated elements
in the same order. -/
theorem copy_parse_of_isPlain (page : Text) (h : (parse page).isPlain = true) :
    (parse page).copy.toHtml = (parse page).toHtml ∧
      ∀ mark : Text, (parse page).copy.annotated mark = (parse page).annotated mark := by
  rw [copy_of_isPlain _ h]
  exact ⟨rfl, fun _ => rfl⟩

/-- A page with a head, a list, formatting and a link. -/
def plainShop : Text :=
  "<!DOCTYPE html><html lang=en>\n<title gettext>Shop</title>\n<h1 gettext>Hello, <em>you</em></h1><ul><li>One<li>Two</ul><a href=/>Up</a>"

theorem copy_parse_of_isPlain_shop : (parse plainShop).isPlain = true ∧ (parse plainShop).copy.toHtml = (parse plainShop).toHtml ∧
    ∀ mark : Text, (parse plainShop).copy.annotated mark = (parse plainShop).annotated mark :=
  have h : (parse plainShop).isPlain = true := by decide +kernel
  ⟨h, copy_parse_of_isPlain plainShop h⟩

end Document

end LocalePages
