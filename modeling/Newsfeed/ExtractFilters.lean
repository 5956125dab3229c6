import Newsfeed.FeedModels

/-! # Filters of the extract procedures

What the procedures of the three engines have in common: the columns that can be used as
filters, and the characters that they leave in them.
-/
namespace ExtractFilters

open TextOperations FeedModels

def keptSymbols : List Char :=
  [' ', '!', '\"', '#', '$', '%', '&', '\'', '(', ')', '*', '+', ',', '-', '.', '/', ':',
    ';', '<', '=', '>', '?', '@', '[', ']', '^', '_', '‘', '\x7b', '|', '\x7d', '~', '¡', '¢',
    '£', '¥', '¦', '§', '¨', '©', '®', '¯', '°', '±', '´', 'µ', '¿', 'À', 'Á', 'Â', 'Ã', 'Ä',
    'Å', 'Æ', 'Ç', 'È', 'É', 'Ê', 'Ë', 'Ì', 'Í', 'Î', 'Ï', 'Ð', 'Ñ', 'Ò', 'Ó', 'Ô', 'Õ', 'Ö',
    '×', 'Ø', 'Ù', 'Ú', 'Û', 'Ü', 'Ý', 'Þ', 'ß', 'à', 'á', 'â', 'ã', 'ä', 'å', 'æ', 'ç', 'è',
    'é', 'ê', 'ë', 'ì', 'í', 'î', 'ï', 'ð', 'ñ', 'ò', 'ó', 'ô', 'õ', 'ö', '÷', 'ø', 'ù', 'ú',
    'û', 'ü', 'ý', 'þ', 'ÿ', 'ı', 'Œ', 'œ', 'Š', 'š', 'Ÿ', 'Ž', 'ž', 'ƒ', 'ˆ', 'ˇ', '˘', '˙',
    '˚', '˛', 'Γ', 'Θ', 'Σ', 'Φ', 'Ω', 'α', 'δ', 'ε', 'π', 'σ', 'τ', 'φ', '–', '—', '‘', '’',
    '“', '”', '•', '…', '€', '™', '∂', '∆', '∏', '∑', '∙', '√', '∞', '∩', '∫', '≈', '≠', '≡',
    '≤', '≥']

def isFilterChar (c : Char) : Bool := c.isAlphanum || keptSymbols.contains c

structure Filters where
  title : Option Text
  imageurl : Option Text
  feedurl : Option Text
  actualurl : Option Text
  deriving DecidableEq, Repr

inductive FilterField where
  | title
  | imageUrl
  | feedUrl
  | actualUrl
  deriving DecidableEq, Repr

namespace FilterField

def value (f : FilterField) (item : CudParams) : Option Text :=
  match f with
  | .title => item.title
  | .imageUrl => item.imageUrl
  | .feedUrl => item.feedUrl
  | .actualUrl => item.actualUrl

def maxLength : FilterField → Nat
  | .title => 255
  | .imageUrl => 255
  | .feedUrl => 768
  | .actualUrl => 255

def supplied (f : FilterField) (params : ExtractParams) : Option Text :=
  match f with
  | .title => params.title
  | .imageUrl => params.imageUrl
  | .feedUrl => params.feedUrl
  | .actualUrl => params.actualUrl

def rewritten (f : FilterField) (filters : Filters) : Option Text :=
  match f with
  | .title => filters.title
  | .imageUrl => filters.imageurl
  | .feedUrl => filters.feedurl
  | .actualUrl => filters.actualurl

def query (f : FilterField) (v : Text) (limit : Nat) (sort : Option SortOrder) : ExtractParams :=
  let none : ExtractParams := ⟨none, none, none, none, some limit, sort⟩
  match f with
  | .title => { none with title := some v }
  | .imageUrl => { none with imageUrl := some v }
  | .feedUrl => { none with feedUrl := some v }
  | .actualUrl => { none with actualUrl := some v }

end FilterField

end ExtractFilters
