import BslInsight.Catalog
import BslInsight.Catalog.Bsl.Classes
import BslInsight.Catalog.Bsl.Enums
import BslInsight.Catalog.Bsl.Globals
import BslInsight.Catalog.OneScript.Classes
import BslInsight.Catalog.OneScript.Enums
import BslInsight.Catalog.OneScript.Globals

/-!
# The catalogs that are always there
-/

namespace BslInsight.Catalog

def Bsl.description : Description where
  version := 1
  methods := Bsl.methods
  properties := Bsl.properties
  classes := Bsl.classes
  enums := Bsl.enums

def OneScript.description : Description where
  version := 1
  methods := OneScript.methods
  properties := OneScript.properties
  classes := OneScript.classes
  enums := OneScript.enums

def Bsl.catalog : Catalog :=
  ofDescription .bsl Bsl.description

def OneScript.catalog : Catalog :=
  ofDescription .oneScript OneScript.description

def builtIn : Dialect → Catalog
  | .bsl => Bsl.catalog
  | .oneScript => OneScript.catalog

end BslInsight.Catalog
