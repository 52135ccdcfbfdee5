import BslInsight.Catalog.Availability
import BslInsight.Catalog.Common.Classes

/-!
# The classes of the platform
-/

namespace BslInsight.Catalog.Bsl

def ownClasses : List (String × ClassRecord) := [
  classOfText "
  ВыборкаИзРезультатаЗапроса/QueryResultSelection
  - Выборка из результата запроса.
  Количество/Count: Число
  - Получает количество записей выборки.
  Сбросить/Reset
  - Устанавливает выборку в начальную позицию.
  Следующий/Next: Булево
  - Переходит к следующей записи выборки.",
  classOfText "
  Запрос/Query
  - Запрос к базе данных.
  Выполнить/Execute: РезультатЗапроса
  - Выполняет запрос.
  ВыполнитьПакет/ExecuteBatch: Массив
  - Выполняет пакет запросов.
  > Массив результатов запросов пакета.
  УстановитьПараметр/SetParameter(Имя: Строка, Значение)
  - Устанавливает параметр запроса.
  .МенеджерВременныхТаблиц/TempTablesManager: МенеджерВременныхТаблиц
  - Менеджер временных таблиц запроса.
  .Параметры/Parameters: Структура
  - Параметры запроса.
  .Текст/Text: Строка
  - Текст запроса.
  +По тексту запроса(ТекстЗапроса: Строка)
  - Создает запрос с заданным текстом.
  +По умолчанию
  - Создает пустой запрос." onServer,
  classOfText "
  ОписаниеТипов/TypeDescription
  - Описание набора допустимых типов.
  ПривестиЗначение/AdjustValue(Значение?)
  - Приводит значение к описанию типов.
  СодержитТип/ContainsType(Тип: Тип): Булево
  - Проверяет вхождение типа в описание.
  Типы/Types: Массив
  - Получает массив типов описания.
  +На основании типов(Типы: Строка, КвалификаторыЧисла?, КвалификаторыСтроки?)
  - Создает описание типов по списку типов.",
  classOfText "
  РезультатЗапроса/QueryResult
  - Результат выполнения запроса.
  Выбрать/Select(ТипОбхода?: ОбходРезультатаЗапроса): ВыборкаИзРезультатаЗапроса
  - Создает выборку из результата запроса.
  Выгрузить/Unload(ТипОбхода?: ОбходРезультатаЗапроса): ТаблицаЗначений
  - Выгружает результат в таблицу значений.
  Пустой/IsEmpty: Булево
  - Определяет, есть ли записи в результате.",
  classOfText "
  СписокЗначений/ValueList
  - Список значений с представлениями и пометками.
  ВыгрузитьЗначения/UnloadValues: Массив
  - Выгружает значения в массив.
  Добавить/Add(Значение?, Представление?: Строка, Пометка?: Булево): ЭлементСпискаЗначений
  - Добавляет значение в список.
  Количество/Count: Число
  - Получает количество элементов списка.
  НайтиПоЗначению/FindByValue(Значение): ЭлементСпискаЗначений
  - Ищет элемент по значению.
  Очистить/Clear
  - Удаляет все элементы списка.
  +По умолчанию
  - Создает пустой объект."]

def classes : List (String × ClassRecord) :=
  gather [Common.classes, ownClasses]

end BslInsight.Catalog.Bsl
