import BslInsight.Catalog.Description

/-!
# Contexts in which code runs

The lists of contexts that occur in the catalogs.
-/

namespace BslInsight.Catalog

def everywhere : List String :=
  ["Сервер", "Тонкий клиент", "Веб-клиент", "Толстый клиент", "Внешнее соединение"]

def onServer : List String :=
  ["Сервер", "Толстый клиент", "Внешнее соединение"]

def onClient : List String :=
  ["Тонкий клиент", "Веб-клиент", "Толстый клиент"]

def onDesktop : List String :=
  ["Тонкий клиент", "Толстый клиент"]

end BslInsight.Catalog
