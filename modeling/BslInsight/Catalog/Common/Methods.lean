import BslInsight.Catalog.Written

/-!
# Global methods that the platform and OneScript share
-/

namespace BslInsight.Catalog.Common

def methods : Members := gather [
  under Segment.conversions "
  Булево/Boolean(Значение): Булево
  - Преобразует значение в тип Булево.
  Дата/Date(Год: Число, Месяц?: Число, День?: Число, Час?: Число, Минута?: Число,
  Секунда?: Число): Дата
  - Формирует значение типа Дата.
  Строка/String(Значение): Строка
  - Преобразует значение в строку.
  Число/Number(Значение): Число
  - Преобразует значение в число.",
  under Segment.strings "
  ВРег/Upper(Строка: Строка): Строка
  - Преобразует все символы строки в верхний регистр.
  КодСимвола/CharCode(Строка: Строка, НомерСимвола?: Число): Число
  - Получает код символа строки.
  Лев/Left(Строка: Строка, ЧислоСимволов: Число): Строка
  - Выбирает первые слева символы строки.
  НРег/Lower(Строка: Строка): Строка
  - Преобразует все символы строки в нижний регистр.
  Прав/Right(Строка: Строка, ЧислоСимволов: Число): Строка
  - Выбирает крайние справа символы строки.
  ПустаяСтрока/IsBlankString(Строка: Строка): Булево
  - Проверяет строку на наличие значащих символов.
  Символ/Char(КодСимвола: Число): Строка
  - Преобразует код символа в символ.
  СокрЛ/TrimL(Строка: Строка): Строка
  - Отсекает незначащие символы, стоящие слева от первого значащего символа в строке.
  СокрЛП/TrimAll(Строка: Строка): Строка
  - Отсекает незначащие символы слева и справа.
  СокрП/TrimR(Строка: Строка): Строка
  - Отсекает незначащие символы, стоящие справа от последнего значащего символа в строке.
  Сред/Mid(Строка: Строка, НачальныйНомер: Число, ЧислоСимволов?: Число): Строка
  - Выбирает строку символов из заданной позиции.
  СтрДлина/StrLen(Строка: Строка): Число
  * Строка Исходная строка.
  - Получает количество символов в строке.
  > Число символов в строке.
  СтрЗаканчиваетсяНа/StrEndsWith(Строка: Строка, СтрокаПоиска: Строка): Булево
  - Проверяет, заканчивается ли строка указанной подстрокой.
  СтрЗаменить/StrReplace(Строка: Строка, ПодстрокаПоиска: Строка, ПодстрокаЗамены: Строка): Строка
  - Заменяет все вхождения подстроки поиска на подстроку замены.
  СтрНайти/StrFind(Строка: Строка, ПодстрокаПоиска: Строка, НаправлениеПоиска?: НаправлениеПоиска,
  НачальнаяПозиция?: Число, НомерВхождения?: Число): Число
  - Находит вхождение искомой строки в строку.
  > Позиция найденной подстроки или 0.
  СтрНачинаетсяС/StrStartsWith(Строка: Строка, СтрокаПоиска: Строка): Булево
  - Проверяет, начинается ли строка с указанной подстроки.
  СтрПолучитьСтроку/StrGetLine(Строка: Строка, НомерСтроки: Число): Строка
  - Получает строку многострочной строки по номеру.
  СтрРазделить/StrSplit(Строка: Строка, Разделитель: Строка, ВключатьПустые?: Булево): Массив
  - Разделяет строку на части по указанным символам-разделителям.
  > Массив строк.
  СтрСоединить/StrConcat(Строки: Массив, Разделитель?: Строка): Строка
  - Объединяет строки массива в одну строку.
  СтрЧислоСтрок/StrLineCount(Строка: Строка): Число
  - Вычисляет число строк в многострочной строке.
  СтрШаблон/StrTemplate(Шаблон: Строка, Значение1?, Значение2?, Значение3?): Строка
  * Шаблон Строка с подстановками %1..%10.
  - Подставляет параметры в строку шаблона.
  ТРег/Title(Строка: Строка): Строка
  - Преобразует первый символ каждого слова в верхний регистр.",
  under Segment.other "
  Выполнить/Execute(Алгоритм: Строка)
  - Выполняет фрагмент кода, переданный строкой.
  Вычислить/Eval(Выражение: Строка)
  - Выполняет выражение, записанное строкой.
  > Результат вычисления выражения.
  ЗначениеЗаполнено/ValueIsFilled(Значение): Булево
  - Проверяет, заполнено ли значение.
  Тип/Type(ИмяТипа: Строка): Тип
  - Получает значение типа по имени.
  ТипЗнч/TypeOf(Значение): Тип
  - Определяет тип значения.",
  under Segment.dates "
  Год/Year(Дата: Дата): Число
  - Получает год из значения даты.
  День/Day(Дата: Дата): Число
  - Получает день месяца из значения даты.
  ДобавитьМесяц/AddMonth(Дата: Дата, ЧислоМесяцев: Число): Дата
  - Добавляет к дате заданное количество месяцев.
  КонецДня/EndOfDay(Дата: Дата): Дата
  - Получает дату конца дня.
  Месяц/Month(Дата: Дата): Число
  - Получает номер месяца из значения даты.
  НачалоДня/BegOfDay(Дата: Дата): Дата
  - Получает дату начала дня.
  ТекущаяДата/CurrentDate: Дата
  - Получает текущую дату компьютера.",
  under Segment.errors "
  ИнформацияОбОшибке/ErrorInfo: ИнформацияОбОшибке
  - Получает структурированное описание ошибки в обработчике исключения.
  ОписаниеОшибки/ErrorDescription: Строка
  - Получает описание ошибки в обработчике исключения.",
  under Segment.numbers "
  Макс/Max(Значение1, Значение2, ЗначениеN?)
  - Возвращает максимальное значение из списка параметров.
  > Наибольшее из значений.
  Мин/Min(Значение1, Значение2, ЗначениеN?)
  - Возвращает минимальное значение из списка параметров.
  > Наименьшее из значений.
  Окр/Round(Число: Число, Разрядность?: Число, РежимОкругления?: РежимОкругления): Число
  - Округляет число до заданного порядка.
  Цел/Int(Число: Число): Число
  - Получает целую часть числа.",
  under Segment.formatting "
  НСтр/NStr(ИсходнаяСтрока: Строка, КодЯзыка?: Строка): Строка
  - Извлекает строку на нужном языке из многоязычной строки.
  Формат/Format(Значение, ФорматнаяСтрока?: Строка): Строка
  - Формирует удобное для чтения представление значения."]

end BslInsight.Catalog.Common
