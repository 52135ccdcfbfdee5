import BslInsight.Catalog.Written

/-!
# Classes that the platform and OneScript share
-/

namespace BslInsight.Catalog.Common

def classes : List (String × ClassRecord) := [
  classOfText "
  ЗаписьJSON/JSONWriter
  - Последовательная запись JSON.
  Закрыть/Close: Строка
  - Завершает запись.
  > Записанная строка, если запись велась в строку.
  ЗаписатьЗначение/WriteValue(Значение)
  - Записывает значение простого типа.
  ОткрытьФайл/OpenFile(ИмяФайла: Строка, Кодировка?)
  - Открывает файл для записи JSON.
  УстановитьСтроку/SetString(ПараметрыЗаписи?)
  - Направляет запись JSON в строку.
  +По умолчанию
  - Создает пустой объект.",
  classOfText "
  КоллекцияКолонокТаблицыЗначений/ValueTableColumnCollection
  - Коллекция колонок таблицы значений.
  Добавить/Add(Имя?: Строка, Тип?: ОписаниеТипов, Заголовок?: Строка): КолонкаТаблицыЗначений
  - Добавляет колонку.
  Количество/Count: Число
  - Получает количество колонок.
  Найти/Find(Имя: Строка): КолонкаТаблицыЗначений
  - Находит колонку по имени.
  Удалить/Delete(Колонка)
  - Удаляет колонку.",
  classOfText "
  КолонкаТаблицыЗначений/ValueTableColumn
  - Колонка таблицы значений.
  .Заголовок/Title: Строка
  - Заголовок колонки.
  .Имя/Name: Строка
  - Имя колонки.
  .ТипЗначения/ValueType: ОписаниеТипов
  - Типы значений колонки.",
  classOfText "
  Массив/Array
  - Коллекция значений, доступных по индексу.
  ВГраница/UBound: Число
  - Получает наибольший индекс элемента массива.
  Вставить/Insert(Индекс: Число, Значение?)
  - Вставляет значение по индексу.
  Добавить/Add(Значение?)
  - Добавляет элемент в конец массива.
  Количество/Count: Число
  - Получает количество элементов массива.
  Найти/Find(Значение): Число
  - Выполняет поиск элемента в массиве.
  > Индекс элемента или Неопределено.
  Очистить/Clear
  - Удаляет все значения из массива.
  Получить/Get(Индекс: Число)
  - Получает значение по индексу.
  Удалить/Delete(Индекс: Число)
  - Удаляет значение по индексу.
  Установить/Set(Индекс: Число, Значение)
  - Устанавливает значение по индексу.
  +По количеству элементов(КоличествоЭлементов1: Число, КоличествоЭлементовN?: Число)
  - Создает массив из заданного количества элементов.
  +По умолчанию
  - Создает пустой массив.",
  classOfText "
  Соответствие/Map
  - Коллекция пар ключ-значение с ключами любого типа.
  Вставить/Insert(Ключ, Значение?)
  - Добавляет или заменяет значение по ключу.
  Количество/Count: Число
  - Получает количество элементов соответствия.
  Очистить/Clear
  - Удаляет все элементы соответствия.
  Получить/Get(Ключ)
  - Получает значение по ключу.
  > Значение или Неопределено.
  Удалить/Delete(Ключ)
  - Удаляет значение по ключу.
  +По умолчанию
  - Создает пустой объект.",
  classOfText "
  СтрокаТаблицыЗначений/ValueTableRow
  - Строка таблицы значений.
  Владелец/Owner: ТаблицаЗначений
  - Получает таблицу, которой принадлежит строка.
  Получить/Get(Индекс: Число)
  - Получает значение по индексу колонки.
  Установить/Set(Индекс: Число, Значение)
  - Устанавливает значение по индексу колонки.",
  classOfText "
  Структура/Structure
  - Коллекция пар ключ-значение с ключами-строками.
  Вставить/Insert(Ключ: Строка, Значение?)
  - Устанавливает значение элемента структуры по ключу.
  Количество/Count: Число
  - Получает количество элементов структуры.
  Очистить/Clear
  - Удаляет все элементы структуры.
  Свойство/Property(Ключ: Строка, НайденноеЗначение?): Булево
  - Проверяет наличие свойства структуры.
  Удалить/Delete(Ключ: Строка)
  - Удаляет элемент структуры по ключу.
  +По ключам и значениям(Ключи: Строка, Значения?)
  * Ключи Ключи через запятую.
  - Создает структуру с заданными ключами.
  +По умолчанию
  - Создает пустую структуру.",
  classOfText "
  ТаблицаЗначений/ValueTable
  - Набор строк с общим набором колонок.
  Вставить/Insert(Индекс: Число): СтрокаТаблицыЗначений
  - Вставляет строку по индексу.
  ВыгрузитьКолонку/UnloadColumn(Колонка): Массив
  - Выгружает значения колонки в массив.
  Добавить/Add: СтрокаТаблицыЗначений
  - Добавляет строку в конец таблицы.
  Количество/Count: Число
  - Получает количество строк таблицы.
  Найти/Find(Значение, Колонки?: Строка): СтрокаТаблицыЗначений
  - Ищет значение в указанных колонках.
  > Найденная строка или Неопределено.
  НайтиСтроки/FindRows(ПараметрыОтбора: Структура): Массив
  - Возвращает массив строк, удовлетворяющих отбору.
  Очистить/Clear
  - Удаляет все строки таблицы.
  Свернуть/GroupBy(КолонкиГруппировок: Строка, КолонкиСуммирования?: Строка)
  - Сворачивает таблицу по колонкам группировок.
  Скопировать/Copy(Строки?, Колонки?: Строка): ТаблицаЗначений
  - Создает копию таблицы.
  Сортировать/Sort(Колонки: Строка)
  - Сортирует таблицу по колонкам.
  .Колонки/Columns: КоллекцияКолонокТаблицыЗначений
  - Коллекция колонок таблицы.
  +По умолчанию
  - Создает пустой объект.",
  classOfText "
  ТекстовыйДокумент/TextDocument
  - Многострочный текстовый документ.
  ДобавитьСтроку/AddLine(Строка: Строка)
  - Добавляет строку в конец документа.
  Записать/Write(ИмяФайла: Строка, Кодировка?: КодировкаТекста)
  - Записывает текст в файл.
  КоличествоСтрок/LineCount: Число
  - Получает количество строк документа.
  ПолучитьСтроку/GetLine(НомерСтроки: Число): Строка
  - Получает строку по номеру.
  ПолучитьТекст/GetText: Строка
  - Получает весь текст документа.
  Прочитать/Read(ИмяФайла: Строка, Кодировка?: КодировкаТекста)
  - Читает текст из файла.
  УстановитьТекст/SetText(Текст: Строка)
  - Устанавливает текст документа.
  +По умолчанию
  - Создает пустой объект.",
  classOfText "
  ЧтениеJSON/JSONReader
  - Последовательное чтение JSON.
  Закрыть/Close
  - Завершает чтение.
  ОткрытьФайл/OpenFile(ИмяФайла: Строка, Кодировка?)
  - Открывает JSON-файл для чтения.
  Прочитать/Read: Булево
  - Читает следующее значение.
  УстановитьСтроку/SetString(Строка: Строка)
  - Устанавливает строку JSON для чтения.
  +По умолчанию
  - Создает пустой объект."]

end BslInsight.Catalog.Common
