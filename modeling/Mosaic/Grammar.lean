/-! The three kinds of text a document is made of. -/
namespace Mosaic

inductive Grammar where
  | markup
  | style
  | script
deriving DecidableEq, Inhabited

def Grammar.name : Grammar → String
  | .markup => "markup"
  | .style => "style"
  | .script => "script"

end Mosaic
