import Crosswalk.Text.Blank
import Crosswalk.Text.Case

/-!
# Names of languages and countries

The tables of ISO 639 (languages) and ISO 3166 (countries). A code is read in any case, with two
or three letters; some languages have a second code of three letters, used in bibliographies.
-/

namespace Crosswalk.Filter

open Text

structure Language where
  alpha2 : Option String
  alpha3 : String
  bibliographic : Option String
  native : String
  english : String
  englishInverted : String
  french : String
  frenchInverted : String

structure Country where
  alpha2 : String
  alpha3 : String
  native : Option String
  english : String
  french : String

def languages : List Language := [
  ⟨some "fr", "fra", some "fre", "français", "French", "French", "français", "français"⟩,
  ⟨some "en", "eng", none, "English", "English", "English", "anglais", "anglais"⟩,
  ⟨some "de", "deu", some "ger", "Deutsch", "German", "German", "allemand", "allemand"⟩,
  ⟨some "es", "spa", none, "español", "Spanish", "Spanish", "espagnol", "espagnol"⟩,
  ⟨some "aa", "aar", none, "Afar", "Afar", "Afar", "afar", "afar"⟩,
  ⟨none, "aaa", none, "Ghotuo", "Ghotuo", "Ghotuo", "ghotuo", "ghotuo"⟩,
  ⟨none, "grc", none, "Ancient Greek", "Ancient Greek (to 1453)", "Greek, Ancient (to 1453)",
    "grec ancien (jusqu'à 1453)", "grec ancien (jusqu'à 1453)"⟩]

def countries : List Country := [
  ⟨"FR", "FRA", some "France", "France", "France"⟩,
  ⟨"DE", "DEU", some "Deutschland", "Germany", "Allemagne"⟩,
  ⟨"GB", "GBR", some "United Kingdom", "United Kingdom", "Royaume-Uni"⟩,
  ⟨"US", "USA", some "United States", "United States", "États-Unis"⟩,
  ⟨"ES", "ESP", some "España", "Spain", "Espagne"⟩,
  ⟨"AQ", "ATA", none, "Antarctica", "Antarctique"⟩]

def languageOf? (code : Text) : Option Language :=
  let c := String.ofList (lower (trim code))
  languages.find? fun l => l.alpha2 == some c || l.alpha3 == c || l.bibliographic == some c

def countryOf? (code : Text) : Option Country :=
  let c := String.ofList (upper (trim code))
  countries.find? fun l => l.alpha2 == c || l.alpha3 == c

def languageTables : List (Text × (Language → Option String)) := [
  ("iso-639-native", fun l => some l.native),
  ("iso-639-english", fun l => some l.english),
  ("iso-639-english-inverted", fun l => some l.englishInverted),
  ("iso-639-french", fun l => some l.french),
  ("iso-639-french-inverted", fun l => some l.frenchInverted)]

def countryTables : List (Text × (Country → Option String)) := [
  ("iso-3166-native", fun c => c.native),
  ("iso-3166-english", fun c => some c.english),
  ("iso-3166-french", fun c => some c.french)]

/-- The name of a code in one of the tables. -/
def isoName? (table code : Text) : Option Text :=
  match languageTables.lookup table with
  | some name => ((languageOf? code).bind name).map String.toList
  | none =>
    match countryTables.lookup table with
    | some name => ((countryOf? code).bind name).map String.toList
    | none => none

example : isoName? "iso-3166-french" " gb " = some ("Royaume-Uni" : Text) := by decide

end Crosswalk.Filter
