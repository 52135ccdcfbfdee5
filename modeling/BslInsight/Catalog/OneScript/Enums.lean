import BslInsight.Catalog.Written

/-!
# The enumerations of OneScript
-/

namespace BslInsight.Catalog.OneScript

def enums : List (String × EnumRecord) := [
  enumOfText "
  КодировкаТекста/TextEncoding
  - Кодировка текстовых файлов.
  ANSI/ANSI
  OEM/OEM
  UTF16/UTF16
  UTF8/UTF8
  UTF8NoBOM/UTF8NoBOM
  Системная/System",
  enumOfText "
  НаправлениеПоиска/SearchDirection
  - Направление поиска подстроки.
  СКонца/FromEnd
  СНачала/FromBegin",
  enumOfText "
  НаправлениеСортировки/SortDirection
  - Направление сортировки.
  Возр/Asc
  Убыв/Desc",
  enumOfText "
  СтатусСообщения/MessageStatus
  - Статус выводимого сообщения.
  БезСтатуса/WithoutStatus
  Важное/Important
  Внимание/Attention
  Обычное/Ordinary
  ОченьВажное/VeryImportant",
  enumOfText "
  ЦветКонсоли/ConsoleColor
  - Цвета консоли.
  Белый/White
  Желтый/Yellow
  Зеленый/Green
  Красный/Red
  Серый/Gray
  Синий/Blue
  Черный/Black"]

end BslInsight.Catalog.OneScript
