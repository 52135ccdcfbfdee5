import BslInsight.Catalog.Written

/-!
# The enumerations of the platform
-/

namespace BslInsight.Catalog.Bsl

def enums : List (String × EnumRecord) := [
  enumOfText "
  ВидСравнения/ComparisonType
  - Вид сравнения в отборах.
  Больше/Greater
  ВСписке/InList
  Меньше/Less
  НеРавно/NotEqual
  Равно/Equal
  Содержит/Contains",
  enumOfText "
  КодВозвратаДиалога/DialogReturnCode
  - Результат диалога вопроса.
  Да/Yes
  Нет/No
  ОК/OK
  Отмена/Cancel
  Таймаут/Timeout",
  enumOfText "
  КодировкаТекста/TextEncoding
  - Кодировка текстовых файлов.
  ANSI/ANSI
  OEM/OEM
  UTF16/UTF16
  UTF8/UTF8
  Системная/System",
  enumOfText "
  НаправлениеПоиска/SearchDirection
  - Направление поиска подстроки.
  СКонца/FromEnd
  СНачала/FromBegin",
  enumOfText "
  НаправлениеСортировки/SortDirection
  - Направление сортировки.
  Возр/Asc
  Убыв/Desc",
  enumOfText "
  РежимДиалогаВопрос/QuestionDialogMode
  - Набор кнопок диалога вопроса.
  ДаНет/YesNo
  ДаНетОтмена/YesNoCancel
  ОК/OK
  ОКОтмена/OKCancel
  ПовторитьОтмена/RetryCancel",
  enumOfText "
  СтатусСообщения/MessageStatus
  - Статус выводимого сообщения.
  БезСтатуса/WithoutStatus
  Важное/Important
  Внимание/Attention
  Обычное/Ordinary
  ОченьВажное/VeryImportant",
  enumOfText "
  УровеньЖурналаРегистрации/EventLogLevel
  - Уровень важности события журнала регистрации.
  Информация/Information
  Ошибка/Error
  Предупреждение/Warning
  Примечание/Note"]

end BslInsight.Catalog.Bsl
