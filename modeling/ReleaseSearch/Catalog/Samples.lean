import ReleaseSearch.Catalog

/-! Three sample books, to try searches on. -/
namespace ReleaseSearch.Samples

/-- An English and a Hungarian edition, with search terms. -/
def mistborn : Book :=
  { title := "Mistborn: The Final Empire"
    subtitle := some "The Final Empire"
    seriesName := some "Mistborn"
    searchTitle := some "The Final Empire"
    authors := ["Brandon Sanderson"]
    searchAuthor := some "Brandon Sanderson"
    isbn13 := some "9780765311788" : Book }
  |>.withTitleIn "en" "Mistborn: The Final Empire"
  |>.withTitleIn "hu" "A végső birodalom"

/-- A descriptive subtitle, without search terms. -/
def cuckoosEgg : Book where
  title := "The Cuckoo's Egg: Tracking a Spy Through the Maze of Computer Espionage"
  subtitle := some "Tracking a Spy Through the Maze of Computer Espionage"
  authors := ["Stoll, Clifford"]
  isbn13 := some "9781416507789"
  isbn10 := some "1416507787"

/-- Editions in several languages, two of which share the title. -/
def dune : Book :=
  { title := "Dune", authors := ["Frank Herbert"] : Book }
  |>.withTitleIn "de" "Der Wüstenplanet"
  |>.withTitleIn "fr" "Dune"
  |>.withTitleIn "it" "Dune"

def entries : List CatalogEntry :=
  [⟨"OL-MISTBORN", mistborn⟩, ⟨"OL-CUCKOO", cuckoosEgg⟩, ⟨"OL-DUNE", dune⟩]

/-- The samples under the standard simplifier. -/
def catalog : Catalog :=
  entries.foldl (fun c e => c.insert e.id e.book) (Catalog.empty Simplifier.standard)

end ReleaseSearch.Samples
