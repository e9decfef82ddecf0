import IndentMarkup.Text.Basic

/-!
# Document types

The keyword behind `doctype` stands for a declaration.
-/

namespace IndentMarkup.Doctype

/-- The keywords with a declaration of their own. -/
def declarations : List (String × String) :=
  [("xml", "<?xml version=\"1.0\" encoding=\"utf-8\" ?>"),
    ("transitional", "<!DOCTYPE html PUBLIC \"-//W3C//DTD XHTML 1.0 Transitional//EN\" " ++
      "\"http://www.w3.org/TR/xhtml1/DTD/xhtml1-transitional.dtd\">"),
    ("strict", "<!DOCTYPE html PUBLIC \"-//W3C//DTD XHTML 1.0 Strict//EN\" " ++
      "\"http://www.w3.org/TR/xhtml1/DTD/xhtml1-strict.dtd\">"),
    ("frameset", "<!DOCTYPE html PUBLIC \"-//W3C//DTD XHTML 1.0 Frameset//EN\" " ++
      "\"http://www.w3.org/TR/xhtml1/DTD/xhtml1-frameset.dtd\">"),
    ("1.1", "<!DOCTYPE html PUBLIC \"-//W3C//DTD XHTML 1.1//EN\" " ++
      "\"http://www.w3.org/TR/xhtml11/DTD/xhtml11.dtd\">"),
    ("basic", "<!DOCTYPE html PUBLIC \"-//W3C//DTD XHTML Basic 1.1//EN\" " ++
      "\"http://www.w3.org/TR/xhtml-basic/xhtml-basic11.dtd\">"),
    ("mobile", "<!DOCTYPE html PUBLIC \"-//WAPFORUM//DTD XHTML Mobile 1.2//EN\" " ++
      "\"http://www.openmobilealliance.org/tech/DTD/xhtml-mobile12.dtd\">")]

/-- Any other keyword stands in a declaration as it is. -/
def declaration (keyword : Text) : Text :=
  match declarations.find? (·.1.toList = keyword) with
  | some (_, declaration) => declaration.toList
  | none => "<!DOCTYPE ".toList ++ keyword ++ ['>']

end IndentMarkup.Doctype
